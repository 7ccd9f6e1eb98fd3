import Haqq.Eip712.TypedData

/-!
# The names of types

The name of the type of a nested object is made from the path to it, with a number because different
paths may have the same name.  It is sanitized once more, which has no effect.  The title caser of
`x/text` is a parameter with its laws on letters and digits.
-/

namespace Haqq.Eip712

open Lib

def Consists (charClass : Char → Bool) (text : String) : Prop :=
  ∀ c ∈ text.toList, charClass c = true

instance (charClass : Char → Bool) (text : String) : Decidable (Consists charClass text) :=
  -- over the text: Mathlib also has an instance over all characters
  List.decidableBAll (fun c => charClass c = true) text.toList

def IsKey (word : Char → Bool) (key : String) : Prop := Consists (fun c => word c || c == '_') key

instance (word : Char → Bool) (key : String) : Decidable (IsKey word key) :=
  inferInstanceAs (Decidable (Consists _ key))

/-- A piece of a name: a word in title case, or what stands for the root. -/
def Titled (title : String → String) (word : Char → Bool) (piece : String) : Prop :=
  piece = typePrefix ∨ ∃ text, Consists word text ∧ piece = title text

/-- What `cases.Title` without lowering does on letters and digits. -/
structure TitleLaws (title : String → String) (word : Char → Bool) : Prop where
  dot : word '.' = false
  underscore : word '_' = false
  digit : ∀ c, c.isDigit = true → word c = true
  letters : Consists word typePrefix
  keepsWord : ∀ text, Consists word text → Consists word (title text)
  stable : ∀ pieces : List String, (∀ piece ∈ pieces, Titled title word piece) → ∀ index : Nat,
    title (typePrefix ++ String.join pieces ++ toString index) =
      typePrefix ++ String.join pieces ++ toString index

section

variable {charClass : Char → Bool}

theorem Consists.append {s t : String} (hs : Consists charClass s) (ht : Consists charClass t) :
    Consists charClass (s ++ t) := by
  intro c hc
  rw [String.toList_append, List.mem_append] at hc
  exact hc.elim (hs c) (ht c)

theorem Consists.join {l : List String} (h : ∀ s ∈ l, Consists charClass s) :
    Consists charClass (String.join l) := by
  intro c hc
  rw [String.toList_join, List.mem_flatMap] at hc
  obtain ⟨s, hs, hc⟩ := hc
  exact h s hs c hc

theorem Consists.not_mem {s : String} {c : Char} (h : Consists charClass s)
    (hc : charClass c = false) : c ∉ s.toList := by
  intro hmem
  rw [h c hmem] at hc
  cases hc

end

theorem isDigit_of_mem_toString {n : Nat} {c : Char} (hc : c ∈ (toString n).toList) :
    c.isDigit = true := by
  rw [Nat.toString_eq_ofList_toDigits, String.toList_ofList] at hc
  exact Nat.isDigit_of_mem_toDigits (by decide) (by decide) hc

theorem toString_ne_nil (n : Nat) : (toString n).toList ≠ [] := by
  rw [Nat.toString_eq_ofList_toDigits, String.toList_ofList]
  exact Nat.toDigits_ne_nil

theorem typeDefWithIndex_ne_tx (typeDef : String) (index : Nat) :
    typeDefWithIndex typeDef index ≠ "Tx" := by
  intro heq
  have hlist := congrArg String.toList heq
  rw [typeDefWithIndex, String.toList_append] at hlist
  obtain ⟨digits, last, hdigits⟩ :=
    (List.eq_nil_or_concat (toString index).toList).resolve_left (toString_ne_nil index)
  rw [List.concat_eq_append] at hdigits
  have hdigit := @isDigit_of_mem_toString index last (by rw [hdigits]; simp)
  rw [hdigits, ← List.append_assoc] at hlist
  have hlast := congrArg List.getLast? hlist
  simp at hlast
  subst hlast
  exact absurd hdigit (by decide)

theorem of_mem_splitOn {a c : Char} {l : List Char} (xs : List Char) (hl : l ∈ xs.splitOn a)
    (hc : c ∈ l) : c ∈ xs ∧ c ≠ a := by
  induction xs generalizing l with
  | nil =>
    simp only [List.splitOn_nil, List.mem_singleton] at hl
    subst hl
    cases hc
  | cons x xs ih =>
    rw [List.splitOn_cons_eq_if_modifyHead] at hl
    split at hl
    · rcases List.mem_cons.mp hl with rfl | hl
      · cases hc
      · exact ⟨.tail _ (ih hl hc).1, (ih hl hc).2⟩
    · rename_i hx
      obtain ⟨first, rest, hsplit⟩ := List.exists_cons_of_ne_nil (List.splitOn_ne_nil a xs)
      rw [hsplit, List.modifyHead_cons] at hl
      rcases List.mem_cons.mp hl with rfl | hl
      · rcases List.mem_cons.mp hc with rfl | hc
        · exact ⟨.head _, by simpa using hx⟩
        · have hmem := ih (hsplit ▸ .head _) hc
          exact ⟨.tail _ hmem.1, hmem.2⟩
      · have hmem := ih (hsplit ▸ .tail _ hl) hc
        exact ⟨.tail _ hmem.1, hmem.2⟩

theorem splitAt_of_not_mem {separator : Char} {text : String} (h : separator ∉ text.toList) :
    splitAt separator text = [text] := by
  rw [splitAt, List.splitOn_eq_singleton h, List.map_singleton, String.ofList_toList]

theorem splitAt_append {separator : Char} {s t : String} (ht : separator ∉ t.toList) :
    splitAt separator (s ++ String.singleton separator ++ t) = splitAt separator s ++ [t] := by
  rw [splitAt, String.toList_append, String.toList_append, String.toList_singleton,
    List.append_assoc, List.singleton_append, List.splitOn_append_cons_self,
    List.splitOn_eq_singleton ht, List.map_append, List.map_singleton, String.ofList_toList]
  rfl

/-! ## Sanitized names -/

section

variable {title : String → String} {word : Char → Bool}

def Sanitized (title : String → String) (word : Char → Bool) (path : String) : Prop :=
  ∃ pieces, (∀ piece ∈ pieces, Titled title word piece) ∧
    sanitizeTypedef title path = typePrefix ++ String.join pieces

theorem sanitized_root : Sanitized title word rootPrefix := by
  refine ⟨[], nofun, ?_⟩
  rw [sanitizeTypedef, splitAt_of_not_mem (by decide)]
  rfl

variable (hlaws : TitleLaws title word)

include hlaws

theorem Sanitized.subField {path key : String} (hpath : Sanitized title word path)
    (hkey : IsKey word key) : Sanitized title word (prefixForSubField path key) := by
  obtain ⟨pieces, hpieces, hname⟩ := hpath
  have hdot : '.' ∉ key.toList := Consists.not_mem hkey (by simp [hlaws.dot])
  have hsanitize : sanitizeTypedef title (prefixForSubField path key) =
      sanitizeTypedef title path ++
        (if key = rootPrefix then typePrefix else String.join ((splitAt '_' key).map title)) := by
    rw [sanitizeTypedef, show prefixForSubField path key =
      path ++ String.singleton '.' ++ key from rfl,
      splitAt_append hdot, List.map_append, String.join_append]
    simp [sanitizeTypedef]
  by_cases hroot : key = rootPrefix
  · refine ⟨pieces ++ [typePrefix], fun piece hpiece => ?_, ?_⟩
    · rcases List.mem_append.mp hpiece with hpiece | hpiece
      · exact hpieces piece hpiece
      · exact .inl (List.mem_singleton.mp hpiece)
    · rw [hsanitize, hname, if_pos hroot, String.join_append, String.append_assoc]
      simp
  · refine ⟨pieces ++ (splitAt '_' key).map title, fun piece hpiece => ?_, ?_⟩
    · rcases List.mem_append.mp hpiece with hpiece | hpiece
      · exact hpieces piece hpiece
      · obtain ⟨text, htext, rfl⟩ := List.mem_map.mp hpiece
        obtain ⟨chars, hchars, rfl⟩ := List.mem_map.mp htext
        refine .inr ⟨_, fun c hc => ?_, rfl⟩
        rw [String.toList_ofList] at hc
        obtain ⟨hmem, hne⟩ := of_mem_splitOn _ hchars hc
        have hclass := hkey c hmem
        simpa [hne] using hclass
    · rw [hsanitize, hname, if_neg hroot, String.join_append, String.append_assoc]

theorem sanitizeTypedef_typeDefWithIndex {path : String} (hpath : Sanitized title word path)
    (index : Nat) :
    sanitizeTypedef title (typeDefWithIndex (sanitizeTypedef title path) index) =
      typeDefWithIndex (sanitizeTypedef title path) index := by
  obtain ⟨pieces, hpieces, hname⟩ := hpath
  rw [typeDefWithIndex, hname]
  have hpiece (piece : String) (hmem : piece ∈ pieces) : Consists word piece := by
    rcases hpieces piece hmem with rfl | ⟨text, htext, rfl⟩
    · exact hlaws.letters
    · exact hlaws.keepsWord text htext
  have hword : Consists word (typePrefix ++ String.join pieces ++ toString index) :=
    (hlaws.letters.append (Consists.join hpiece)).append
      fun c hc => hlaws.digit c (isDigit_of_mem_toString hc)
  have hstable := hlaws.stable pieces hpieces index
  have hroot : typePrefix ++ String.join pieces ++ toString index ≠ rootPrefix := by
    intro heq
    rw [heq] at hword
    exact absurd (hword '_' (by decide)) (by simp [hlaws.underscore])
  rw [sanitizeTypedef, splitAt_of_not_mem (hword.not_mem hlaws.dot)]
  simp only [List.map_singleton, if_neg hroot, splitAt_of_not_mem (hword.not_mem hlaws.underscore),
    hstable]
  simp

end

end Haqq.Eip712
