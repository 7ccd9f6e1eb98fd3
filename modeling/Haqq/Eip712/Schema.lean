import Haqq.Eip712.Payload
import Haqq.Eip712.TypeNames

/-!
# The schema of a payload

What `createEIP712Types` makes of the messages of a payload.  `Describes` says that the type of a
name is the type of a JSON value; null and arrays of null or of arrays are not listed.  What was
described before stays described.

* `createEIP712Types_spec` follows the types that are added for each message.
* `createEIP712Types_describes`: the schema is closed and describes every message.
-/

namespace Haqq.Eip712

open Lib

/-! ## Values and their types -/

def Unsupported : Json → Prop
  | .null => True
  | .array _ => True
  | _ => False

mutual

inductive Describes (types : Types) : String → Json → Prop
  | bool (value : Bool) : Describes types "bool" (.bool value)
  | number (value : Int) : Describes types "int64" (.number value)
  | string (text : String) : Describes types "string" (.string text)
  | object {name : String} {fields : List (String × Json)} {defs : List TypeField}
      (hname : name ≠ "Tx") (hget : types.get name = some defs)
      (hlist : ListsFields types fields defs) : Describes types name (.object fields)

/-- From the last key to the first. -/
inductive ListsFields (types : Types) : List (String × Json) → List TypeField → Prop
  | nil : ListsFields types [] []
  | null {name : String} {rest : List (String × Json)} {defs : List TypeField}
      (hrest : ListsFields types rest defs) : ListsFields types ((name, .null) :: rest) defs
  | emptyArray {name : String} {rest : List (String × Json)} {defs : List TypeField}
      (hrest : ListsFields types rest defs) :
      ListsFields types ((name, .array []) :: rest) (defs ++ [⟨name, "string[]"⟩])
  | unsupported {name : String} {item : Json} {items : List Json} {rest : List (String × Json)}
      {defs : List TypeField} (hitem : Unsupported item) (hrest : ListsFields types rest defs) :
      ListsFields types ((name, .array (item :: items)) :: rest) defs
  | array {name type : String} {item : Json} {items : List Json} {rest : List (String × Json)}
      {defs : List TypeField} (hitems : ∀ value ∈ item :: items, Describes types type value)
      (hrest : ListsFields types rest defs) :
      ListsFields types ((name, .array (item :: items)) :: rest) (defs ++ [⟨name, type ++ "[]"⟩])
  | value {name type : String} {value : Json} {rest : List (String × Json)} {defs : List TypeField}
      (hvalue : Describes types type value) (hrest : ListsFields types rest defs) :
      ListsFields types ((name, value) :: rest) (defs ++ [⟨name, type⟩])

end

def Kept (types types' : Types) : Prop :=
  ∀ name defs, name ≠ "Tx" → types.get name = some defs → types'.get name = some defs

mutual

theorem Describes.mono {types types' : Types} (hkept : Kept types types') {name : String}
    {json : Json} : Describes types name json → Describes types' name json
  | .bool value => .bool value
  | .number value => .number value
  | .string text => .string text
  | .object hname hget hlist => .object hname (hkept _ _ hname hget) (hlist.mono hkept)

theorem ListsFields.mono {types types' : Types} (hkept : Kept types types')
    {fields : List (String × Json)} {defs : List TypeField} :
    ListsFields types fields defs → ListsFields types' fields defs
  | .nil => .nil
  | .null hrest => .null (hrest.mono hkept)
  | .emptyArray hrest => .emptyArray (hrest.mono hkept)
  | .unsupported hitem hrest => .unsupported hitem (hrest.mono hkept)
  | .array hitems hrest =>
    .array (fun value hvalue => (hitems value hvalue).mono hkept) (hrest.mono hkept)
  | .value hvalue hrest => .value (hvalue.mono hkept) (hrest.mono hkept)

end

/-! ## Homogeneous arrays -/

mutual

def skeleton : Json → Json
  | .null => .null
  | .bool _ => .bool false
  | .number _ => .number 0
  | .string _ => .string ""
  | .array [] => .array []
  | .array (item :: _) => .array [skeleton item]
  | .object fields => .object (skeletonFields fields)

def skeletonFields : List (String × Json) → List (String × Json)
  | [] => []
  | (_, .null) :: rest => skeletonFields rest
  | (name, value) :: rest => (name, skeleton value) :: skeletonFields rest

end

/-- Keys have letters, digits and underscores, and the items of an array are alike. -/
inductive WellFormed (word : Char → Bool) : Json → Prop
  | null : WellFormed word .null
  | bool (value : Bool) : WellFormed word (.bool value)
  | number (value : Int) : WellFormed word (.number value)
  | string (text : String) : WellFormed word (.string text)
  | array {items : List Json} (hitems : ∀ item ∈ items, WellFormed word item)
      (halike : ∀ item ∈ items, ∀ item' ∈ items, skeleton item = skeleton item') :
      WellFormed word (.array items)
  | object {fields : List (String × Json)} (hkeys : ∀ field ∈ fields, IsKey word field.1)
      (hvalues : ∀ field ∈ fields, WellFormed word field.2) : WellFormed word (.object fields)

variable {types types' : Types} {name type : String} {json json' value : Json}
  {rest : List (String × Json)} {defs : List TypeField}

theorem Unsupported.skeleton : ∀ {json : Json}, Unsupported json → Unsupported (skeleton json)
  | .null, _ => trivial
  | .array [], _ => trivial
  | .array (_ :: _), _ => trivial

theorem Unsupported.of_skeleton :
    ∀ {json : Json}, Unsupported (Eip712.skeleton json) → Unsupported json
  | .null, _ => trivial
  | .array _, _ => trivial

theorem skeletonFields_of_describes (h : Describes types type value) :
    skeletonFields ((name, value) :: rest) = (name, skeleton value) :: skeletonFields rest := by
  cases h <;> rfl

mutual

theorem Describes.toSkeleton {name : String} {json : Json} :
    Describes types name json → Describes types name (skeleton json)
  | .bool _ => .bool false
  | .number _ => .number 0
  | .string _ => .string ""
  | .object hname hget hlist => .object hname hget hlist.toSkeleton

theorem ListsFields.toSkeleton {fields : List (String × Json)} {defs : List TypeField} :
    ListsFields types fields defs → ListsFields types (skeletonFields fields) defs
  | .nil => .nil
  | .null hrest => hrest.toSkeleton
  | .emptyArray hrest => .emptyArray hrest.toSkeleton
  | .unsupported hitem hrest => .unsupported hitem.skeleton hrest.toSkeleton
  | .array hitems hrest => by
    refine .array (fun value hvalue => ?_) hrest.toSkeleton
    cases List.mem_singleton.mp hvalue
    exact (hitems _ (.head _)).toSkeleton
  | .value hvalue hrest => by
    rw [skeletonFields_of_describes hvalue]
    exact .value hvalue.toSkeleton hrest.toSkeleton

end

variable {word : Char → Bool}

def Restored (types : Types) (json : Json) : Prop :=
  ∀ name, Describes types name (skeleton json) → Describes types name json

def DeeplyRestored (types : Types) : Json → Prop
  | .array items => ∀ item ∈ items, Restored types item
  | json => Restored types json

theorem DeeplyRestored.restored : ∀ {json : Json}, DeeplyRestored types json → Restored types json
  | .null, h => h
  | .bool _, h => h
  | .number _, h => h
  | .string _, h => h
  | .array [], _ => fun _ h => nomatch h
  | .array (_ :: _), _ => fun _ h => nomatch h
  | .object _, h => h

theorem listsFields_of_skeleton {fields : List (String × Json)} {defs : List TypeField}
    (hwell : ∀ field ∈ fields, WellFormed word field.2)
    (hdeep : ∀ field ∈ fields, DeeplyRestored types field.2)
    (h : ListsFields types (skeletonFields fields) defs) : ListsFields types fields defs := by
  induction fields generalizing defs with
  | nil => exact h
  | cons field rest ih =>
    obtain ⟨name, value⟩ := field
    have ih {defs : List TypeField} (hrest : ListsFields types (skeletonFields rest) defs) :=
      ih (fun field h => hwell field (.tail _ h)) (fun field h => hdeep field (.tail _ h)) hrest
    have hrestored := (hdeep (name, value) (.head _)).restored
    have hvalue {type : String} {defs : List TypeField}
        (hvalue : Describes types type (skeleton value))
        (hrest : ListsFields types (skeletonFields rest) defs) :
        ListsFields types ((name, value) :: rest) (defs ++ [⟨name, type⟩]) :=
      .value (hrestored type hvalue) (ih hrest)
    cases value with
    | null => exact .null (ih h)
    | array items =>
      cases items with
      | nil =>
        cases h with
        | emptyArray hrest => exact .emptyArray (ih hrest)
        | value h hrest => cases h
      | cons item items =>
        cases h with
        | unsupported hitem hrest => exact .unsupported hitem.of_skeleton (ih hrest)
        | array hitems hrest =>
          refine .array (fun value hmem => ?_) (ih hrest)
          -- every item has the skeleton of the first one
          cases hwell (name, .array (item :: items)) (.head _) with
          | array _ halike =>
            have hskeleton := hitems (skeleton item) (.head _)
            rw [halike item (.head _) value hmem] at hskeleton
            exact hdeep (name, .array (item :: items)) (.head _) value hmem _ hskeleton
        | value h hrest => cases h
    | bool => cases h with | value h hrest => exact hvalue h hrest
    | number => cases h with | value h hrest => exact hvalue h hrest
    | string => cases h with | value h hrest => exact hvalue h hrest
    | object => cases h with | value h hrest => exact hvalue h hrest

theorem WellFormed.deeplyRestored (h : WellFormed word json) : DeeplyRestored types json := by
  induction h with
  | null => exact fun _ h => nomatch h
  | bool value =>
    rintro _ ⟨⟩
    exact .bool value
  | number value =>
    rintro _ ⟨⟩
    exact .number value
  | string text =>
    rintro _ ⟨⟩
    exact .string text
  | array hitems halike ih => exact fun item hitem => (ih item hitem).restored
  | object hkeys hvalues ih =>
    intro name h
    cases h with
    | object hname hget hlist =>
      exact .object hname hget (listsFields_of_skeleton hvalues ih hlist)

theorem Describes.of_skeleton_eq (h : Describes types name json)
    (hwell : WellFormed word json') (hskeleton : skeleton json = skeleton json') :
    Describes types name json' :=
  hwell.deeplyRestored.restored name (hskeleton ▸ h.toSkeleton)

/-! ## Growing schemas -/

def primitiveTypes : List String := ["bool", "int64", "string", "uint256"]

def Resolves (types : Types) (type : String) : Prop :=
  ∃ base, (type = base ∨ type = base ++ "[]") ∧ (base ∈ primitiveTypes ∨ types.get base ≠ none)

def Closed (types : Types) : Prop :=
  ∀ name defs, types.get name = some defs → ∀ field ∈ defs, Resolves types field.type

theorem Describes.resolves (h : Describes types name json) :
    name ∈ primitiveTypes ∨ types.get name ≠ none := by
  cases h with
  | bool => exact .inl (by decide)
  | number => exact .inl (by decide)
  | string => exact .inl (by decide)
  | object _ hget _ => exact .inr (by rw [hget]; nofun)

theorem resolves_concat (h : ∀ field ∈ defs, Resolves types field.type)
    (htype : Resolves types type) :
    ∀ field ∈ defs ++ [⟨name, type⟩], Resolves types field.type := by
  intro field hfield
  rcases List.mem_append.mp hfield with hfield | hfield
  · exact h field hfield
  · cases List.mem_singleton.mp hfield
    exact htype

theorem ListsFields.resolves {fields : List (String × Json)} {defs : List TypeField} :
    ListsFields types fields defs → ∀ field ∈ defs, Resolves types field.type
  | .nil => nofun
  | .null hrest | .unsupported _ hrest => hrest.resolves
  | .emptyArray hrest => resolves_concat hrest.resolves ⟨"string", .inr rfl, .inl (by decide)⟩
  | .array hitems hrest =>
    resolves_concat hrest.resolves ⟨_, .inr rfl, (hitems _ (.head _)).resolves⟩
  | .value hvalue hrest => resolves_concat hrest.resolves ⟨_, .inl rfl, hvalue.resolves⟩

structure Grows (types types' : Types) : Prop where
  kept : Kept types types'
  tx : types'.get "Tx" = types.get "Tx"
  closed : Closed types → Closed types'

theorem Kept.trans {types'' : Types} (h : Kept types types') (h' : Kept types' types'') :
    Kept types types'' :=
  fun name defs hname hget => h' name defs hname (h name defs hname hget)

theorem Grows.refl (types : Types) : Grows types types := ⟨fun _ _ _ h => h, rfl, id⟩

theorem Grows.trans {types'' : Types} (h : Grows types types') (h' : Grows types' types'') :
    Grows types types'' :=
  ⟨h.kept.trans h'.kept, h'.tx.trans h.tx, fun hclosed => h'.closed (h.closed hclosed)⟩

theorem Closed.set (hclosed : Closed types)
    (hdefs : ∀ field ∈ defs, Resolves types field.type) : Closed (types.set name defs) := by
  have hresolves (type : String) : Resolves types type → Resolves (types.set name defs) type := by
    rintro ⟨base, hbase, hdefined⟩
    refine ⟨base, hbase, hdefined.imp_right fun h => ?_⟩
    rw [FinMap.get_set]
    split
    · nofun
    · exact h
  intro other defs' hother field hfield
  rw [FinMap.get_set] at hother
  split at hother
  · cases hother
    exact hresolves _ (hdefs field hfield)
  · exact hresolves _ (hclosed other defs' hother field hfield)

theorem Grows.set (hname : name ≠ "Tx") (hfree : types.get name = none)
    (hdefs : ∀ field ∈ defs, Resolves types field.type) :
    Grows types (types.set name defs) := by
  refine ⟨fun other defs' _ hother => ?_, FinMap.get_set_of_ne _ _ hname.symm,
    fun hclosed => hclosed.set hdefs⟩
  rw [FinMap.get_set_of_ne]
  · exact hother
  · rintro rfl
    rw [hfree] at hother
    cases hother

theorem addTypesFrom_spec {typeDef key : String} {left index : Nat}
    (hdefs : ∀ field ∈ defs, Resolves types field.type)
    (h : addTypesFrom types typeDef defs left index = .ok (key, types')) :
    Grows types types' ∧ types'.get key = some defs ∧ ∃ i, key = typeDefWithIndex typeDef i := by
  induction left generalizing index with
  | zero => cases h
  | succ left ih =>
    rw [addTypesFrom] at h
    split at h
    · rename_i hfree
      cases h
      exact ⟨.set (typeDefWithIndex_ne_tx _ _) hfree hdefs, FinMap.get_set_self _ _ _, index, rfl⟩
    · rename_i existing hexisting
      split at h
      · rename_i heq
        cases h
        exact ⟨.refl _, by rw [hexisting, heq], index, rfl⟩
      · exact ih h

/-! ## Inferred types -/

section

variable {title : String → String} {rootType path : String} {fields : List (String × Json)}

/-- What is inferred of a value is a type of it, or there is none. -/
def ElementSpec (title : String → String) (word : Char → Bool) (rootType path : String)
    (json : Json) (types : Types) : Prop :=
  WellFormed word json → Sanitized title word path → path ≠ rootPrefix → ∀ type types',
    addElementType title rootType path json types = .ok (type, types') →
      Grows types types' ∧
        (type = none ∧ Unsupported json ∨ ∃ name, type = some name ∧ Describes types' name json)

def FieldsSpec (title : String → String) (word : Char → Bool) (rootType path : String)
    (fields : List (String × Json)) (types : Types) : Prop :=
  (∀ field ∈ fields, IsKey word field.1) → (∀ field ∈ fields, WellFormed word field.2) →
    Sanitized title word path → ∀ defs types',
      addFieldTypes title rootType path fields types = .ok (defs, types') →
        Grows types types' ∧ ListsFields types' fields defs

theorem FieldsSpec.tail {field : String × Json}
    (hspec : FieldsSpec title word rootType path rest types)
    (hkeys : ∀ f ∈ field :: rest, IsKey word f.1)
    (hvalues : ∀ f ∈ field :: rest, WellFormed word f.2)
    (hpath : Sanitized title word path)
    (h : addFieldTypes title rootType path rest types = .ok (defs, types')) :
    Grows types types' ∧ ListsFields types' rest defs :=
  hspec (List.forall_mem_cons.mp hkeys).2 (List.forall_mem_cons.mp hvalues).2 hpath defs types' h

theorem prefixForSubField_ne_root (path name : String) :
    prefixForSubField path name ≠ rootPrefix := by
  intro heq
  have hdot : '.' ∈ (prefixForSubField path name).toList := by simp [prefixForSubField]
  rw [heq] at hdot
  exact absurd hdot (by decide)

theorem elementSpec_primitive (hobject : ∀ fields, json ≠ .object fields) :
    ElementSpec title word rootType path json types := by
  intro _ _ _ type types' h
  cases json with
  | null =>
    cases h
    exact ⟨.refl _, .inl ⟨rfl, trivial⟩⟩
  | bool value =>
    cases h
    exact ⟨.refl _, .inr ⟨_, rfl, .bool value⟩⟩
  | number value =>
    cases h
    exact ⟨.refl _, .inr ⟨_, rfl, .number value⟩⟩
  | string text =>
    cases h
    exact ⟨.refl _, .inr ⟨_, rfl, .string text⟩⟩
  | array items =>
    cases h
    exact ⟨.refl _, .inl ⟨rfl, trivial⟩⟩
  | object fields => exact absurd rfl (hobject fields)

section

variable (hlaws : TitleLaws title word)

include hlaws

theorem elementSpec_object (hspec : FieldsSpec title word rootType path fields types) :
    ElementSpec title word rootType path (.object fields) types := by
  rintro ⟨⟩ hpath hroot type types' h
  rename_i hkeys hvalues
  obtain ⟨⟨defs, mid⟩, hfields, h⟩ := except_bind_ok.mp h
  obtain ⟨⟨key, grown⟩, hadd, h⟩ := except_bind_ok.mp h
  cases h
  obtain ⟨hgrows, hlist⟩ := hspec hkeys hvalues hpath _ _ hfields
  obtain ⟨hadded, hget, index, rfl⟩ := addTypesFrom_spec hlist.resolves hadd
  rw [typeDefForPrefix, if_neg hroot] at hget ⊢
  refine ⟨hgrows.trans hadded, .inr ⟨_, rfl, ?_⟩⟩
  rw [sanitizeTypedef_typeDefWithIndex hlaws hpath]
  exact .object (typeDefWithIndex_ne_tx _ _) hget (hlist.mono hadded.kept)

omit hlaws in
theorem fieldsSpec_emptyArray (hspec : FieldsSpec title word rootType path rest types) :
    FieldsSpec title word rootType path ((name, .array []) :: rest) types := by
  intro hkeys hvalues hpath defs types' h
  obtain ⟨⟨restDefs, mid⟩, hrest, h⟩ := except_bind_ok.mp h
  cases h
  obtain ⟨hgrows, hlist⟩ := hspec.tail hkeys hvalues hpath hrest
  exact ⟨hgrows, .emptyArray hlist⟩

theorem fieldsSpec_array {item : Json} {items : List Json}
    (hspec : FieldsSpec title word rootType path rest types)
    (hitem : ∀ types, ElementSpec title word rootType (prefixForSubField path name) item types) :
    FieldsSpec title word rootType path ((name, .array (item :: items)) :: rest) types := by
  intro hkeys hvalues hpath defs types' h
  obtain ⟨⟨restDefs, mid⟩, hrest, h⟩ := except_bind_ok.mp h
  obtain ⟨⟨type, grown⟩, helement, h⟩ := except_bind_ok.mp h
  cases h
  obtain ⟨hgrows, hlist⟩ := hspec.tail hkeys hvalues hpath hrest
  cases hvalues (name, .array (item :: items)) (.head _) with
  | array hwell halike =>
    obtain ⟨hgrows', htype⟩ := hitem mid (hwell item (.head _))
      (hpath.subField hlaws (hkeys _ (.head _))) (prefixForSubField_ne_root _ _) _ _ helement
    refine ⟨hgrows.trans hgrows', ?_⟩
    rcases htype with ⟨rfl, hunsupported⟩ | ⟨type, rfl, hdescribes⟩
    · rw [Option.toList_none, List.map_nil, List.append_nil]
      exact .unsupported hunsupported (hlist.mono hgrows'.kept)
    · exact .array (fun value hvalue => hdescribes.of_skeleton_eq (hwell value hvalue)
        (halike item (.head _) value hvalue)) (hlist.mono hgrows'.kept)

theorem fieldsSpec_value (hempty : value ≠ .array [])
    (harray : ∀ item items, value ≠ .array (item :: items))
    (hspec : FieldsSpec title word rootType path rest types)
    (hvalue : ∀ types, ElementSpec title word rootType (prefixForSubField path name) value types) :
    FieldsSpec title word rootType path ((name, value) :: rest) types := by
  intro hkeys hvalues hpath defs types' h
  rw [addFieldTypes.eq_4 _ _ _ _ _ _ _ hempty harray] at h
  obtain ⟨⟨restDefs, mid⟩, hrest, h⟩ := except_bind_ok.mp h
  obtain ⟨⟨type, grown⟩, helement, h⟩ := except_bind_ok.mp h
  cases h
  obtain ⟨hgrows, hlist⟩ := hspec.tail hkeys hvalues hpath hrest
  obtain ⟨hgrows', htype⟩ := hvalue mid (hvalues _ (.head _))
    (hpath.subField hlaws (hkeys _ (.head _))) (prefixForSubField_ne_root _ _) _ _ helement
  refine ⟨hgrows.trans hgrows', ?_⟩
  rcases htype with ⟨rfl, hunsupported⟩ | ⟨type, rfl, hdescribes⟩
  · obtain rfl : value = .null := by
      match value, hunsupported with
      | .null, _ => rfl
      | .array [], _ => exact absurd rfl hempty
      | .array (item :: items), _ => exact absurd rfl (harray item items)
    rw [Option.toList_none, List.map_nil, List.append_nil]
    exact .null (hlist.mono hgrows'.kept)
  · exact .value hdescribes (hlist.mono hgrows'.kept)

theorem addFieldTypes_spec (rootType path : String) (fields : List (String × Json))
    (types : Types) :
    FieldsSpec title word rootType path fields types := by
  refine (addElementType.mutual_induct (ElementSpec title word rootType)
    (FieldsSpec title word rootType) ?_ ?_ ?_ ?_ ?_ ?_).2 path fields types
  · intro path fields types
    exact elementSpec_object hlaws
  · intro path json types hobject
    exact elementSpec_primitive hobject
  · intro path types _ _ _ defs types' h
    cases h
    exact ⟨.refl _, .nil⟩
  · intro path name rest types
    exact fieldsSpec_emptyArray
  · intro path name item items rest types
    exact fieldsSpec_array hlaws
  · intro path name value rest types hempty harray
    exact fieldsSpec_value hlaws hempty harray

theorem recursivelyAddTypesToRoot_spec {key : String}
    (hwell : WellFormed word (.object fields))
    (h : recursivelyAddTypesToRoot title types rootType fields = .ok (key, types')) :
    Grows types types' ∧ Describes types' key (.object fields) := by
  obtain ⟨⟨defs, mid⟩, hfields, hadd⟩ := except_bind_ok.mp h
  cases hwell with
  | object hkeys hvalues =>
    obtain ⟨hgrows, hlist⟩ := addFieldTypes_spec hlaws rootType rootPrefix fields types hkeys
      hvalues sanitized_root _ _ hfields
    obtain ⟨hadded, hget, index, rfl⟩ := addTypesFrom_spec hlist.resolves hadd
    exact ⟨hgrows.trans hadded, .object (typeDefWithIndex_ne_tx _ _) hget (hlist.mono hadded.kept)⟩

end

end

/-! ## Messages -/

def txFields : List TypeField :=
  [⟨"account_number", "string"⟩, ⟨"chain_id", "string"⟩, ⟨"fee", "Fee"⟩, ⟨"memo", "string"⟩,
    ⟨"sequence", "string"⟩]

def txFieldsWith (names : List String) : List TypeField :=
  txFields ++ names.zipIdx.map fun (name, i) => ⟨msgFieldForIndex i, name⟩

/-- It refers to nothing that is not defined, and it has a type for every message. -/
structure SchemaOf (types : Types) (msgs : List Json) : Prop where
  closed : Closed types
  messages : ∃ names, names.length = msgs.length ∧
    types.get "Tx" = some (txFieldsWith names) ∧
    ∀ (i : Nat) name msg, names[i]? = some name → msgs[i]? = some msg → Describes types name msg

theorem closed_baseTypes : Closed baseTypes := by
  intro name defs hget field hfield
  have htype : field.type ∈ ["string", "uint256", "Fee", "Coin[]"] := by
    simp only [baseTypes, FinMap.get_ofList_cons, FinMap.get_ofList_nil] at hget
    revert field
    repeat' split at hget
    all_goals cases hget
    all_goals decide
  simp only [List.mem_cons, List.not_mem_nil, or_false] at htype
  rcases htype with htype | htype | htype | htype
  · exact ⟨"string", .inl htype, .inl (by decide)⟩
  · exact ⟨"uint256", .inl htype, .inl (by decide)⟩
  · exact ⟨"Fee", .inl htype, .inr nofun⟩
  · exact ⟨"Coin", .inr htype, .inr nofun⟩

theorem schemaOf_baseTypes : SchemaOf baseTypes [] :=
  ⟨closed_baseTypes, [], rfl, rfl, nofun⟩

structure Extends (earlier later : Types) : Prop where
  kept : Kept earlier later
  tx : ∃ added, later.get "Tx" = (earlier.get "Tx").map (· ++ added)

theorem Extends.refl (types : Types) : Extends types types :=
  ⟨fun _ _ _ h => h, [], by simp⟩

theorem Extends.trans {types'' : Types} (h : Extends types types') (h' : Extends types' types'') :
    Extends types types'' := by
  obtain ⟨added, hadded⟩ := h.tx
  obtain ⟨added', hadded'⟩ := h'.tx
  refine ⟨h.kept.trans h'.kept, added ++ added', ?_⟩
  rw [hadded', hadded, Option.map_map]
  congr 1
  funext defs
  exact List.append_assoc _ _ _

section

variable {title : String → String} (hlaws : TitleLaws title word) {msgs : List Json} {msg : Json}
  {types' : Types}

include hlaws

theorem addMsgTypesToRoot_spec (hschema : SchemaOf types msgs) (hwell : WellFormed word msg)
    (h : addMsgTypesToRoot title types (msgFieldForIndex msgs.length) (some msg) = .ok types') :
    SchemaOf types' (msgs ++ [msg]) ∧ Extends types types' := by
  cases msg with
  | object fields =>
    obtain ⟨rootType, -, h⟩ := except_bind_ok.mp h
    obtain ⟨⟨key, mid⟩, hadd, h⟩ := except_bind_ok.mp h
    cases h
    obtain ⟨hgrows, hdescribes⟩ := recursivelyAddTypesToRoot_spec hlaws hwell hadd
    obtain ⟨names, hlength, htx, hnames⟩ := hschema.messages
    have hmidTx : mid.get "Tx" = some (txFieldsWith names) := hgrows.tx.trans htx
    have htx' : (addMsgTypeDefToTxSchema mid (msgFieldForIndex msgs.length) key).get "Tx" =
        some (txFieldsWith names ++ [⟨msgFieldForIndex msgs.length, key⟩]) := by
      rw [addMsgTypeDefToTxSchema, hmidTx, FinMap.get_set_self]
      rfl
    have hkept : Kept mid (addMsgTypeDefToTxSchema mid (msgFieldForIndex msgs.length) key) :=
      fun name defs hname hget => (FinMap.get_set_of_ne _ _ hname).trans hget
    have hclosed := hgrows.closed hschema.closed
    refine ⟨⟨hclosed.set ?_, names ++ [key], by simp [hlength], ?_, ?_⟩,
      hgrows.kept.trans hkept, _, htx'.trans (by rw [htx]; rfl)⟩
    · rw [hmidTx]
      exact resolves_concat (hclosed "Tx" _ hmidTx) ⟨key, .inl rfl, hdescribes.resolves⟩
    · rw [htx', txFieldsWith, txFieldsWith, List.zipIdx_append, List.map_append, List.append_assoc,
        ← hlength, Nat.zero_add]
      rfl
    · have hold := fun i name msg hname hmsg =>
        (hnames i name msg hname hmsg).mono (hgrows.kept.trans hkept)
      have hnew := hdescribes.mono hkept
      grind
  | _ => cases h

omit hlaws in
theorem createEIP712Types_succ (payload : Payload) (n : Nat) :
    createEIP712Types title payload (n + 1) = createEIP712Types title payload n >>= fun types =>
      addMsgTypesToRoot title types (msgFieldForIndex n) (payload.get (msgFieldForIndex n)) := by
  rw [createEIP712Types, List.range_succ, List.foldlM_append]
  simp [createEIP712Types]

theorem createEIP712Types_spec {payload : Payload} (hwell : ∀ msg ∈ msgs, WellFormed word msg)
    (hget : ∀ (i : Nat) msg, msgs[i]? = some msg → payload.get (msgFieldForIndex i) = some msg)
    {n : Nat} (hn : n ≤ msgs.length) (h : createEIP712Types title payload n = .ok types) :
    SchemaOf types (msgs.take n) ∧
      ∀ k ≤ n, ∃ earlier, createEIP712Types title payload k = .ok earlier ∧
        Extends earlier types := by
  induction n generalizing types with
  | zero =>
    cases h
    refine ⟨schemaOf_baseTypes, fun k hk => ?_⟩
    obtain rfl := Nat.le_zero.mp hk
    exact ⟨_, rfl, .refl _⟩
  | succ n ih =>
    rw [createEIP712Types_succ] at h
    obtain ⟨before, hbefore, hadd⟩ := except_bind_ok.mp h
    obtain ⟨hschema, hearlier⟩ := ih (by omega) hbefore
    have hmsg : msgs[n]? = some (msgs.get ⟨n, hn⟩) := List.getElem?_eq_getElem hn
    rw [hget n _ hmsg] at hadd
    have hlength : (msgs.take n).length = n := by
      rw [List.length_take]
      omega
    obtain ⟨hschema', hextends⟩ := addMsgTypesToRoot_spec hlaws hschema
      (hwell _ (List.get_mem msgs ⟨n, hn⟩)) (by rw [hlength]; exact hadd)
    refine ⟨?_, fun k hk => ?_⟩
    · rw [List.take_add_one, hmsg]
      exact hschema'
    · rcases Nat.lt_or_eq_of_le hk with hk | rfl
      · obtain ⟨earlier, hcreate, hbetween⟩ := hearlier k (by omega)
        exact ⟨earlier, hcreate, hbetween.trans hextends⟩
      · exact ⟨types, (createEIP712Types_succ payload n).trans h, .refl _⟩

end

/-- The schema of homogeneous documents is closed and describes every message, except for arrays of
null or of arrays. -/
theorem createEIP712Types_describes {title : String → String} {word : Char → Bool}
    (hlaws : TitleLaws title word) (document payload : Payload) (n : Nat) (msgs : List Json)
    (hflatten : flattenPayloadMessages document = .ok (payload, n))
    (hmsgs : getPayloadMessages document = .ok msgs) (hwell : ∀ msg ∈ msgs, WellFormed word msg)
    (types : Types) (h : createEIP712Types title payload n = .ok types) :
    SchemaOf types msgs ∧
      ∀ k ≤ n, ∃ earlier, createEIP712Types title payload k = .ok earlier ∧
        Extends earlier types := by
  obtain ⟨msgs', hmsgs', rfl, hget⟩ := flattenPayloadMessages_ok hflatten
  cases hmsgs.symm.trans hmsgs'
  have hspec := createEIP712Types_spec hlaws hwell hget (Nat.le_refl _) h
  rwa [List.take_length] at hspec

/-! ## Two messages -/

def capitalize (text : String) : String :=
  match text.toList with
  | [] => ""
  | c :: rest => String.ofList (c.toUpper :: rest)

theorem isAlphanum_toUpper {c : Char} (h : c.isAlphanum = true) : c.toUpper.isAlphanum = true := by
  have hbound : c.val ≤ 'z'.val := by
    rcases (Bool.or_eq_true c.isAlpha c.isDigit).mp h with hletter | hdigit
    · rcases (Bool.or_eq_true c.isUpper c.isLower).mp hletter with hupper | hlower
      · exact UInt32.le_trans (of_decide_eq_true hupper).2 (by decide)
      · exact of_decide_eq_true (Bool.and_eq_true_iff.mp hlower).2
    · exact UInt32.le_trans (of_decide_eq_true (Bool.and_eq_true_iff.mp hdigit).2) (by decide)
  have hascii : c.toNat < 123 := Nat.lt_succ_of_le (UInt32.le_iff_toNat_le.mp hbound)
  have hall : ∀ n < 123, (Char.ofNat n).isAlphanum = true →
      (Char.ofNat n).toUpper.isAlphanum = true := by
    decide
  have hc := hall c.toNat hascii
  rw [Char.ofNat_toNat] at hc
  exact hc h

theorem capitalize_laws : TitleLaws capitalize Char.isAlphanum where
  dot := by decide
  underscore := by decide
  digit c hc := by simp [Char.isAlphanum, hc]
  letters := by decide
  keepsWord text htext c hc := by
    unfold capitalize at hc
    split at hc
    · cases hc
    · rename_i first rest htoList
      rw [String.toList_ofList] at hc
      rcases List.mem_cons.mp hc with rfl | hc
      · exact isAlphanum_toUpper (htext first (by simp [htoList]))
      · exact htext c (by simp [htoList, hc])
  stable pieces _ index := by
    -- the first letter is a capital
    rw [capitalize, String.append_assoc, String.toList_append]
    show String.ofList (typePrefix.toList ++ _) = _
    rw [← String.toList_append, String.ofList_toList]

def sampleMsgs : List Json :=
  [.object [("coins", .array [.object [("denom", .string "a")], .object [("denom", .string "b")]]),
      ("foo_bar", .object [("x", .number 1)]), ("type", .string "haqq/MsgA")],
    .object [("foo", .object [("bar", .object [("y", .bool true)])]),
      ("type", .string "haqq/MsgB")]]

def documentOf (msgs : List Json) : Payload :=
  .ofList [("memo", .string ""), ("msgs", .array msgs)]

theorem WellFormed.cons {key : String} (hkey : IsKey word key) (hvalue : WellFormed word value)
    (hrest : WellFormed word (.object rest)) :
    WellFormed word (.object ((key, value) :: rest)) := by
  cases hrest with
  | object hkeys hvalues =>
    exact .object (List.forall_mem_cons.mpr ⟨hkey, hkeys⟩)
      (List.forall_mem_cons.mpr ⟨hvalue, hvalues⟩)

theorem wellFormed_sampleMsgs : ∀ msg ∈ sampleMsgs, WellFormed Char.isAlphanum msg := by
  have hnil : WellFormed Char.isAlphanum (.object []) := .object nofun nofun
  have hcoin (denom : String) : WellFormed Char.isAlphanum (.object [("denom", .string denom)]) :=
    .cons (by decide) (.string denom) hnil
  have hcoins : WellFormed Char.isAlphanum
      (.array [.object [("denom", .string "a")], .object [("denom", .string "b")]]) :=
    .array (by simpa using ⟨hcoin "a", hcoin "b"⟩) (by simp [skeleton, skeletonFields])
  refine List.forall_mem_cons.mpr ⟨?_, List.forall_mem_singleton.mpr ?_⟩
  · refine .cons ?_ hcoins (.cons ?_ (.cons ?_ (.number 1) hnil) (.cons ?_ (.string _) hnil)) <;>
      decide
  · refine .cons ?_ (.cons ?_ (.cons ?_ (.bool true) hnil) hnil) (.cons ?_ (.string _) hnil) <;>
      decide

theorem sampleMsgs_described : ∃ payload types,
    flattenPayloadMessages (documentOf sampleMsgs) = .ok (payload, 2) ∧
      createEIP712Types capitalize payload 2 = .ok types ∧
      types.get "TypeFooBar0" = some [⟨"x", "int64"⟩] ∧
      types.get "TypeFooBar1" = some [⟨"y", "bool"⟩] ∧ SchemaOf types sampleMsgs :=
  ⟨_, _, rfl, rfl, rfl, rfl,
    (createEIP712Types_describes capitalize_laws (documentOf sampleMsgs) _ 2
    sampleMsgs rfl rfl wellFormed_sampleMsgs _ rfl).1⟩

def gridMsg : Json :=
  .object [("grid", .array [.array [.number 1]]), ("type", .string "haqq/MsgGrid")]

theorem nested_array_not_listed : WellFormed Char.isAlphanum gridMsg ∧ ∃ payload types,
    flattenPayloadMessages (documentOf [gridMsg]) = .ok (payload, 1) ∧
      createEIP712Types capitalize payload 1 = .ok types ∧
      types.get "Tx" = some (txFieldsWith ["TypeMsgGrid0"]) ∧
      types.get "TypeMsgGrid0" = some [⟨"type", "string"⟩] := by
  have hrow : WellFormed Char.isAlphanum (.array [.number 1]) :=
    .array (by simpa using .number 1) (by simp)
  have hgrid : WellFormed Char.isAlphanum (.array [.array [.number 1]]) :=
    .array (by simpa using hrow) (by simp)
  have hwell : WellFormed Char.isAlphanum gridMsg := by
    refine .cons ?_ hgrid (.cons ?_ (.string _) (.object nofun nofun)) <;> decide
  exact ⟨hwell, _, _, rfl, rfl, rfl, rfl⟩

end Haqq.Eip712
