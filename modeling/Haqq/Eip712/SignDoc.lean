import Haqq.Eip712.Payload
import Haqq.Lib.Text
import Haqq.Types

/-!
# What an EIP-712 signature covers

`ethereum/eip712/encoding.go`: a protobuf sign document is rewritten as an amino sign document and
then as typed data.  The payer and the granter of the fee are not in it, and bytes of the memo that
are not valid UTF-8 are replaced.  The codecs of the SDK are parameters.

* `Shown` is what the typed data has of a document.
* `typedData_binds_iff`: in what two documents with the same typed data can differ.
-/

namespace Haqq.Eip712

open Lib

/-! ## Sign documents -/

structure FeeCoin where
  denom : String
  amount : Int
  deriving DecidableEq

@[ext]
structure Fee where
  amount : List FeeCoin
  gasLimit : UInt64
  payer : String
  granter : String
  deriving DecidableEq

structure SignerInfo where
  sequence : UInt64

structure AuthInfo where
  signerInfos : List SignerInfo
  /-- A nil pointer if it is missing. -/
  fee : Option Fee

structure TxBody (Any : Type) where
  messages : List Any
  memo : Bytes
  timeoutHeight : UInt64
  extensionOptions : List Any
  nonCriticalExtensionOptions : List Any

structure SignDoc where
  bodyBytes : Bytes
  authInfoBytes : Bytes
  chainId : String
  accountNumber : UInt64

structure StdFee where
  amount : List FeeCoin
  gas : UInt64
  payer : String
  granter : String

structure AminoDoc (Msg : Type) where
  chainID : String
  msgs : List Msg
  json : Json

/-- The encodings of documents and messages, which belong to the SDK, and what is known of them. -/
structure Codec (Any Msg : Type) where
  unmarshalSignDoc : Bytes → Option SignDoc
  unmarshalAuthInfo : Bytes → Option AuthInfo
  unmarshalBody : Bytes → Option (TxBody Any)
  unpackAny : Any → Option Msg
  getMsgSigners : Msg → Option (List Address)
  unmarshalAmino : Bytes → Option (AminoDoc Msg)
  /-- The amino JSON of a message; marshalling a message of an unknown type panics. -/
  aminoMsg : Msg → Option Json
  aminoFee : StdFee → Json
  /-- How Go's JSON encoder replaces what is not valid UTF-8. -/
  lossyText : Bytes → String
  title : String → String
  aminoMsg_injective : ∀ m m' json, aminoMsg m = some json → aminoMsg m' = some json → m = m'
  aminoFee_injective : Function.Injective aminoFee
  /-- The tag of the field for the auth info is a control character, which JSON does not
  allow. -/
  disjoint : ∀ bytes doc authInfo, unmarshalSignDoc bytes = some doc →
    unmarshalAuthInfo doc.authInfoBytes = some authInfo → authInfo.signerInfos ≠ [] →
      unmarshalAmino bytes = none

def isNumber : List Char → Bool
  | [] => false
  | first :: rest => first.isDigit && first ≠ '0' && rest.all Char.isDigit

def decimal (digits : List Char) : Nat :=
  digits.foldl (fun n c => 10 * n + (c.toNat - '0'.toNat)) 0

/-- The number between the underscore and the dash. -/
def parseChainID (chainID : String) : Option Nat :=
  let text := trimSpace chainID.toList
  if 48 < (String.ofList text).utf8ByteSize then none
  else
    match text.dropWhile Char.isLower with
    | '_' :: rest =>
      match rest.dropWhile Char.isDigit with
      | '-' :: epoch =>
        let eip155 := rest.takeWhile Char.isDigit
        if text.takeWhile Char.isLower ≠ [] ∧ isNumber eip155 ∧ isNumber epoch then
          some (decimal eip155)
        else none
      | _ => none
    | _ => none

/-! ## Decoding -/

section Decoding

variable {Any Msg : Type} (codec : Codec Any Msg)

def orError {α : Type} (err : Eip712Error) : Option α → Except Eip712Error α
  | some a => .ok a
  | none => .error err

def jsonText (bytes : Bytes) : String :=
  (String.fromUTF8? ⟨bytes.toArray⟩).getD (codec.lossyText bytes)

/-- A timeout height of zero is left out. -/
def stdSignBytes (chainID : String) (accnum sequence timeout : UInt64) (fee : StdFee)
    (msgs : List Msg) (memo : Bytes) : Except Eip712Error Json := do
  let msgsJson ← msgs.mapM fun msg => orError .panic (codec.aminoMsg msg)
  return .object
    ([("account_number", .string (toString accnum.toNat)), ("chain_id", .string chainID),
        ("fee", codec.aminoFee fee), ("memo", .string (jsonText codec memo)),
        ("msgs", .array msgsJson), ("sequence", .string (toString sequence.toNat))] ++
      if timeout = 0 then [] else [("timeout_height", .string (toString timeout.toNat))])

/-- The signer is that of the first message. -/
def validateSigners (msgSigner : Option Address) : List Msg → Except Eip712Error Unit
  | [] => .ok ()
  | msg :: rest => do
    let signers ← orError .getSigners (codec.getMsgSigners msg)
    match signers with
    | [signer] =>
      if msgSigner.all (· = signer) then validateSigners (some signer) rest
      else .error .multipleSigners
    | _ => .error .notOneSigner

def validatePayloadMessages (msgs : List Msg) : Except Eip712Error Unit :=
  if msgs = [] then .error .emptyTransaction else validateSigners codec none msgs

def decodeAminoSignDoc (signDocBytes : Bytes) : Except Eip712Error TypedData := do
  let aminoDoc ← orError .unmarshal (codec.unmarshalAmino signDocBytes)
  validatePayloadMessages codec aminoDoc.msgs
  let chainID ← orError .invalidChainID (parseChainID aminoDoc.chainID)
  wrapTxToTypedData codec.title (UInt64.ofNat chainID) aminoDoc.json

def TxBody.hasUnsupportedFields (body : TxBody Any) : Bool :=
  body.timeoutHeight ≠ 0 || !body.extensionOptions.isEmpty ||
    !body.nonCriticalExtensionOptions.isEmpty

def onlySigner (authInfo : AuthInfo) : Except Eip712Error SignerInfo :=
  match authInfo.signerInfos with
  | [signerInfo] => .ok signerInfo
  | infos => .error (.signerInfos infos.length)

/-- The typed data of a document in protobuf is that of its legacy amino form. -/
def decodeProtobufSignDoc (signDocBytes : Bytes) : Except Eip712Error TypedData := do
  let signDoc ← orError .unmarshal (codec.unmarshalSignDoc signDocBytes)
  let authInfo ← orError .unmarshal (codec.unmarshalAuthInfo signDoc.authInfoBytes)
  let body ← orError .unmarshal (codec.unmarshalBody signDoc.bodyBytes)
  if body.hasUnsupportedFields then .error .unsupportedFields
  else
    let signerInfo ← onlySigner authInfo
    let msgs ← body.messages.mapM fun msg => orError .unpackMessage (codec.unpackAny msg)
    validatePayloadMessages codec msgs
    let chainID ← orError .invalidChainID (parseChainID signDoc.chainId)
    -- the payer and the granter are not copied
    let fee ← orError .panic authInfo.fee
    let stdFee : StdFee := ⟨fee.amount, fee.gasLimit, "", ""⟩
    let signBytes ← stdSignBytes codec signDoc.chainId signDoc.accountNumber signerInfo.sequence
      body.timeoutHeight stdFee msgs body.memo
    wrapTxToTypedData codec.title (UInt64.ofNat chainID) signBytes

/-- A panic is not an error that the other way of decoding could make good. -/
def validTypedData (result : Except Eip712Error TypedData) :
    Except Eip712Error (Option TypedData) :=
  match result with
  | .ok typedData => .ok (if typedData.isValid then some typedData else none)
  | .error .panic => .error .panic
  | .error _ => .ok none

def getEIP712TypedDataForMsg (signDocBytes : Bytes) : Except Eip712Error TypedData := do
  match ← validTypedData (decodeAminoSignDoc codec signDocBytes) with
  | some typedData => return typedData
  | none =>
    match ← validTypedData (decodeProtobufSignDoc codec signDocBytes) with
    | some typedData => return typedData
    | none => .error .neither

end Decoding

variable {typedData : TypedData}

section Message

variable {msgs : List Json}

theorem wrapTxToTypedData_message {title : String → String} {chainID : UInt64}
    {fields : List (String × Json)} (hmsgs : (FinMap.ofList fields).get "msgs" = some (.array msgs))
    (hfree : ∀ j, (FinMap.ofList fields).get (msgFieldForIndex j) = none)
    (h : wrapTxToTypedData title chainID (.object fields) = .ok typedData) :
    (∀ j, typedData.message.get (msgFieldForIndex j) = msgs[j]?) ∧
      ∀ name, name.toList.take 3 ≠ ['m', 's', 'g'] →
        typedData.message.get name = (FinMap.ofList fields).get name := by
  obtain ⟨_, hpayload, h⟩ := except_bind_ok.mp h
  cases hpayload
  obtain ⟨⟨flattened, count⟩, hflattened, h⟩ := except_bind_ok.mp h
  obtain ⟨types, -, h⟩ := except_bind_ok.mp h
  obtain ⟨domain, -, h⟩ := except_bind_ok.mp h
  cases h
  obtain ⟨msgs', hmsgs', hflattened⟩ := except_bind_ok.mp hflattened
  obtain ⟨payload', hadd, hflattened⟩ := except_bind_ok.mp hflattened
  cases hflattened
  simp only [getPayloadMessages, hmsgs, Except.ok.injEq] at hmsgs'
  subst hmsgs'
  refine ⟨fun j => ?_, fun name hname => ?_⟩
  · have hget := addMessages_get (fun k => by simpa using hfree k) hadd j
    rw [Nat.zero_add] at hget
    have hne : msgFieldForIndex j ≠ "msgs" := by
      rintro heq
      have hnone := hfree j
      rw [heq, hmsgs] at hnone
      cases hnone
    rw [FinMap.get_erase, if_neg hne, hget]
  · rw [FinMap.get_erase, if_neg (by rintro rfl; simp at hname)]
    exact addMessages_get_of_ne (fun j _ => (msgFieldForIndex_ne hname).symm) hadd

end Message

/-! ## Contents of a document -/

/-- What a protobuf sign document says, as far as a signature is supposed to cover it. -/
@[ext]
structure Contents (Msg : Type) where
  chainId : String
  accountNumber : UInt64
  sequence : UInt64
  memo : Bytes
  msgs : List Msg
  fee : Fee

/-- What the typed data show of it. -/
@[ext]
structure Shown (Msg : Type) where
  chainId : String
  accountNumber : UInt64
  sequence : UInt64
  memoText : String
  msgs : List Msg
  feeAmount : List FeeCoin
  gasLimit : UInt64

variable {α : Type} {err : Eip712Error} {b b' : Bytes}

section Contents

variable {Any Msg : Type} (codec : Codec Any Msg)

def contents (signDocBytes : Bytes) : Option (Contents Msg) := do
  let signDoc ← codec.unmarshalSignDoc signDocBytes
  let authInfo ← codec.unmarshalAuthInfo signDoc.authInfoBytes
  let body ← codec.unmarshalBody signDoc.bodyBytes
  let signerInfo ← (onlySigner authInfo).toOption
  let msgs ← body.messages.mapM codec.unpackAny
  let fee ← authInfo.fee
  return ⟨signDoc.chainId, signDoc.accountNumber, signerInfo.sequence, body.memo, msgs, fee⟩

def Contents.shown (c : Contents Msg) : Shown Msg :=
  ⟨c.chainId, c.accountNumber, c.sequence, jsonText codec c.memo, c.msgs, c.fee.amount,
    c.fee.gasLimit⟩

def Shown.signBytes (shown : Shown Msg) (msgsJson : List Json) : List (String × Json) :=
  [("account_number", .string (toString shown.accountNumber.toNat)),
    ("chain_id", .string shown.chainId),
    ("fee", codec.aminoFee ⟨shown.feeAmount, shown.gasLimit, "", ""⟩),
    ("memo", .string shown.memoText), ("msgs", .array msgsJson),
    ("sequence", .string (toString shown.sequence.toNat))]

variable {codec}

theorem orError_ok {o : Option α} {a : α} : orError err o = .ok a ↔ o = some a := by
  cases o <;> simp [orError]

theorem mapM_orError {β : Type} {f : α → Option β} {l : List α} {l' : List β} :
    (l.mapM fun a => orError err (f a)) = .ok l' ↔ l.mapM f = some l' := by
  induction l generalizing l' with
  | nil => simp [pure, Except.pure]
  | cons a rest ih =>
    simp only [List.mapM_cons, except_bind_ok, orError_ok, ih, Option.bind_eq_bind,
      Option.bind_eq_some_iff]
    simp [pure, Except.pure]

theorem onlySigner_ok {authInfo : AuthInfo} {signerInfo : SignerInfo}
    (h : onlySigner authInfo = .ok signerInfo) : authInfo.signerInfos = [signerInfo] := by
  unfold onlySigner at h
  split at h
  · rename_i info hinfos
    cases h
    exact hinfos
  · cases h

theorem validTypedData_some {result : Except Eip712Error TypedData}
    (h : validTypedData result = .ok (some typedData)) : result = .ok typedData := by
  unfold validTypedData at h
  split at h
  · rename_i found
    split at h
    · cases h
      rfl
    · cases h
  · cases h
  · cases h

theorem typedData_of_contents {signDocBytes : Bytes} {c : Contents Msg}
    (hc : contents codec signDocBytes = some c)
    (h : getEIP712TypedDataForMsg codec signDocBytes = .ok typedData) :
    ∃ chainID msgsJson, parseChainID c.chainId = some chainID ∧
      c.msgs.mapM codec.aminoMsg = some msgsJson ∧
      wrapTxToTypedData codec.title (UInt64.ofNat chainID)
        (.object ((c.shown codec).signBytes codec msgsJson)) = .ok typedData := by
  unfold contents at hc
  simp only [Option.bind_eq_bind, Option.bind_eq_some_iff] at hc
  obtain ⟨signDoc, hdoc, authInfo, hauth, body, hbody, signerInfo, hsigner, msgs, hmsgs, fee, hfee,
    hc⟩ := hc
  cases hc
  have hsigner' : onlySigner authInfo = .ok signerInfo := by
    cases honly : onlySigner authInfo with
    | error err =>
      rw [honly] at hsigner
      cases hsigner
    | ok info =>
      rw [honly] at hsigner
      cases hsigner
      rfl
  -- the bytes are no amino document
  have hamino : decodeAminoSignDoc codec signDocBytes = .error .unmarshal := by
    have hnone := codec.disjoint signDocBytes signDoc authInfo hdoc hauth
      (by simp [onlySigner_ok hsigner'])
    unfold decodeAminoSignDoc
    rw [hnone]
    rfl
  have hprotobuf : decodeProtobufSignDoc codec signDocBytes = .ok typedData := by
    unfold getEIP712TypedDataForMsg at h
    rw [hamino] at h
    obtain ⟨first, hfirst, h⟩ := except_bind_ok.mp h
    cases hfirst
    obtain ⟨second, hsecond, h⟩ := except_bind_ok.mp h
    cases second with
    | none => cases h
    | some found =>
      cases h
      exact validTypedData_some hsecond
  unfold decodeProtobufSignDoc at hprotobuf
  simp only [except_bind_ok, orError_ok, hdoc, hauth, hbody, Option.some.injEq,
    exists_eq_left'] at hprotobuf
  split at hprotobuf
  · cases hprotobuf
  · rename_i hsupported
    simp only [except_bind_ok, orError_ok, mapM_orError, hsigner', hmsgs, hfee, Except.ok.injEq,
      Option.some.injEq, exists_eq_left'] at hprotobuf
    obtain ⟨-, -, chainID, hchain, json, hjson, hwrap⟩ := hprotobuf
    obtain ⟨msgsJson, hmsgsJson, hjson⟩ := except_bind_ok.mp hjson
    have htimeout : body.timeoutHeight = 0 := by
      by_contra htimeout
      simp [TxBody.hasUnsupportedFields, htimeout] at hsupported
    cases hjson
    rw [if_pos htimeout, List.append_nil] at hwrap
    exact ⟨chainID, msgsJson, hchain, mapM_orError.mp hmsgsJson, hwrap⟩

theorem mapM_aminoMsg_injective {l l' : List Msg} {jsons : List Json}
    (h : l.mapM codec.aminoMsg = some jsons) (h' : l'.mapM codec.aminoMsg = some jsons) :
    l = l' := by
  induction l generalizing l' jsons with
  | nil =>
    cases h
    cases l' with
    | nil => rfl
    | cons msg rest => simp [Option.bind_eq_some_iff] at h'
  | cons msg rest ih =>
    cases l' with
    | nil =>
      cases h'
      simp [Option.bind_eq_some_iff] at h
    | cons msg' rest' =>
      simp only [List.mapM_cons, Option.bind_eq_bind, Option.bind_eq_some_iff] at h h'
      obtain ⟨json, hjson, jsons', hrest, hcons⟩ := h
      obtain ⟨json', hjson', jsons'', hrest', hcons'⟩ := h'
      cases hcons
      cases hcons'
      rw [codec.aminoMsg_injective msg msg' json hjson hjson', ih hrest hrest']

theorem signBytes_free (shown : Shown Msg) (msgsJson : List Json) (j : Nat) :
    (FinMap.ofList (shown.signBytes codec msgsJson)).get (msgFieldForIndex j) = none := by
  simp [Shown.signBytes, msgFieldForIndex_ne_msgs,
    @msgFieldForIndex_ne j "account_number" (by decide),
    @msgFieldForIndex_ne j "chain_id" (by decide), @msgFieldForIndex_ne j "fee" (by decide),
    @msgFieldForIndex_ne j "memo" (by decide), @msgFieldForIndex_ne j "sequence" (by decide)]

section

variable {c c' : Contents Msg} (hc : contents codec b = some c)
  (hc' : contents codec b' = some c')
  (h : getEIP712TypedDataForMsg codec b = .ok typedData)

include hc hc' h

theorem shown_eq_of_typedData
    (h' : getEIP712TypedDataForMsg codec b' = .ok typedData) : c.shown codec = c'.shown codec := by
  obtain ⟨chainID, msgsJson, -, hmsgs, hwrap⟩ := typedData_of_contents hc h
  obtain ⟨chainID', msgsJson', -, hmsgs', hwrap'⟩ := typedData_of_contents hc' h'
  obtain ⟨hget, hfield⟩ := wrapTxToTypedData_message rfl (signBytes_free _ _) hwrap
  obtain ⟨hget', hfield'⟩ := wrapTxToTypedData_message rfl (signBytes_free _ _) hwrap'
  have hjson : msgsJson = msgsJson' := List.ext_getElem? fun j => (hget j).symm.trans (hget' j)
  have hshared : ∀ name, name.toList.take 3 ≠ ['m', 's', 'g'] →
      (FinMap.ofList ((c.shown codec).signBytes codec msgsJson)).get name =
        (FinMap.ofList ((c'.shown codec).signBytes codec msgsJson')).get name :=
    fun name hname => (hfield name hname).symm.trans (hfield' name hname)
  -- the fields of the document are found by evaluation
  have hstring : ∀ {x y : String}, some (Json.string x) = some (Json.string y) → x = y :=
    fun heq => Json.string.inj (Option.some.inj heq)
  have haccount := hstring (hshared "account_number" (by decide))
  have hchain := hstring (hshared "chain_id" (by decide))
  have hfee := Option.some.inj (hshared "fee" (by decide))
  have hmemo := hstring (hshared "memo" (by decide))
  have hsequence := hstring (hshared "sequence" (by decide))
  have hstdFee := StdFee.mk.inj (codec.aminoFee_injective hfee)
  have hmsgsEq : c.msgs = c'.msgs := mapM_aminoMsg_injective hmsgs (hjson ▸ hmsgs')
  have hnumber : ∀ {n m : UInt64}, toString n.toNat = toString m.toNat → n = m :=
    fun heq => UInt64.toNat_inj.mp (toString_injective heq)
  exact Shown.ext hchain (hnumber haccount) (hnumber hsequence) hmemo hmsgsEq hstdFee.1
    hstdFee.2.1

theorem typedData_eq_of_shown {typedData' : TypedData}
    (h' : getEIP712TypedDataForMsg codec b' = .ok typedData')
    (hshown : c.shown codec = c'.shown codec) : typedData = typedData' := by
  obtain ⟨chainID, msgsJson, hchain, hmsgs, hwrap⟩ := typedData_of_contents hc h
  obtain ⟨chainID', msgsJson', hchain', hmsgs', hwrap'⟩ := typedData_of_contents hc' h'
  have hchains : c.chainId = c'.chainId := congrArg Shown.chainId hshown
  have hmsgsEq : c.msgs = c'.msgs := congrArg Shown.msgs hshown
  rw [hchains, hchain', Option.some.injEq] at hchain
  rw [hmsgsEq, hmsgs', Option.some.injEq] at hmsgs
  rw [← hchain, ← hmsgs, hshown, hwrap', Except.ok.injEq] at hwrap
  exact hwrap.symm

end

/-- Two documents with the same typed data agree, but for the payer and the granter of the fee and
for bytes of the memo that are not valid UTF-8. -/
theorem typedData_binds_iff (codec : Codec Any Msg) {b b' : Bytes} {c c' : Contents Msg}
    {typedData typedData' : TypedData}
    (hc : contents codec b = some c) (hc' : contents codec b' = some c')
    (h : getEIP712TypedDataForMsg codec b = .ok typedData)
    (h' : getEIP712TypedDataForMsg codec b' = .ok typedData') :
    (typedData = typedData' → c = c') ↔
      (c.shown codec = c'.shown codec →
        c.fee.payer = c'.fee.payer ∧ c.fee.granter = c'.fee.granter ∧ c.memo = c'.memo) := by
  constructor
  · intro hbinds hshown
    obtain rfl := hbinds (typedData_eq_of_shown hc hc' h h' hshown)
    exact ⟨rfl, rfl, rfl⟩
  · rintro hrest rfl
    have hshown := shown_eq_of_typedData hc hc' h h'
    obtain ⟨hpayer, hgranter, hmemo⟩ := hrest hshown
    obtain ⟨hchain, haccount, hsequence, -, hmsgs, hamount, hgas⟩ := Shown.mk.inj hshown
    exact Contents.ext hchain haccount hsequence hmemo hmsgs (Fee.ext hamount hgas hpayer hgranter)

end Contents

/-! ## Documents -/

def sampleFee (fee : StdFee) : Json :=
  .object
    [("amount", .array (fee.amount.map fun coin =>
        .object [("amount", .number coin.amount), ("denom", .string coin.denom)])),
      ("gas", .string (toString fee.gas.toNat)), ("granter", .string fee.granter),
      ("payer", .string fee.payer)]

def sampleCodec : Codec Unit Unit where
  unmarshalSignDoc bytes := some ⟨bytes.drop 2, bytes.take 2, "haqq_11235-1", 7⟩
  unmarshalAuthInfo
    | [sequence, granted] => some ⟨[⟨sequence.toUInt64⟩],
        some ⟨[⟨"aISLM", 5⟩], 200000, "", if granted = 0 then "" else "haqq1granter"⟩⟩
    | _ => some ⟨[], none⟩
  unmarshalBody bytes := some ⟨[()], bytes, 0, [], []⟩
  unpackAny := some
  getMsgSigners _ := some [1]
  unmarshalAmino _ := none
  aminoMsg _ := some (.object [("type", .string "MsgPing"), ("value", .object [])])
  aminoFee := sampleFee
  lossyText bytes := String.ofList (bytes.map fun _ => '\uFFFD')
  title := id
  aminoMsg_injective _ _ _ _ _ := rfl
  aminoFee_injective := by
    rintro ⟨amount, gas, payer, granter⟩ ⟨amount', gas', payer', granter'⟩ h
    simp only [sampleFee, Json.object.injEq, List.cons.injEq, Prod.mk.injEq, Json.array.injEq,
      Json.string.injEq, true_and, and_true] at h
    obtain ⟨hamount, hgas, rfl, rfl⟩ := h
    have hcoin : Function.Injective fun coin : FeeCoin =>
        Json.object [("amount", .number coin.amount), ("denom", .string coin.denom)] := by
      rintro ⟨denom, amount⟩ ⟨denom', amount'⟩ hcoin
      simpa [and_comm] using hcoin
    obtain rfl := List.map_injective_iff.mpr hcoin hamount
    obtain rfl := UInt64.toNat_inj.mp (toString_injective hgas)
    rfl
  disjoint _ _ _ _ _ _ := rfl

theorem sequence_bound : ∃ c c' typedData typedData',
    contents sampleCodec [1, 0] = some c ∧ contents sampleCodec [2, 0] = some c' ∧
      getEIP712TypedDataForMsg sampleCodec [1, 0] = .ok typedData ∧
      getEIP712TypedDataForMsg sampleCodec [2, 0] = .ok typedData' ∧
      (typedData = typedData' → c = c') := by
  obtain ⟨typedData, h⟩ : ∃ typedData,
      getEIP712TypedDataForMsg sampleCodec [1, 0] = .ok typedData := ⟨_, rfl⟩
  obtain ⟨typedData', h'⟩ : ∃ typedData,
      getEIP712TypedDataForMsg sampleCodec [2, 0] = .ok typedData := ⟨_, rfl⟩
  refine ⟨_, _, typedData, typedData', rfl, rfl, h, h', ?_⟩
  apply (typedData_binds_iff sampleCodec rfl rfl h h').mpr
  intro hshown
  exact absurd (congrArg Shown.sequence hshown) (by decide)

def sampleContents (granter : String) (memo : Bytes) : Contents Unit :=
  ⟨"haqq_11235-1", 7, 1, memo, [()], [⟨"aISLM", 5⟩], 200000, "", granter⟩

/-- Two documents that differ in the granter only have the same typed data, and so have two
documents whose memos are different invalid bytes. -/
theorem granter_unbound :
    contents sampleCodec [1, 0] = some (sampleContents "" []) ∧
    contents sampleCodec [1, 1] = some (sampleContents "haqq1granter" []) ∧
    (∃ typedData, getEIP712TypedDataForMsg sampleCodec [1, 0] = .ok typedData ∧
      getEIP712TypedDataForMsg sampleCodec [1, 1] = .ok typedData) ∧
    contents sampleCodec [1, 0, 0xfe] = some (sampleContents "" [0xfe]) ∧
    contents sampleCodec [1, 0, 0xff] = some (sampleContents "" [0xff]) ∧
    ∃ typedData, getEIP712TypedDataForMsg sampleCodec [1, 0, 0xfe] = .ok typedData ∧
      getEIP712TypedDataForMsg sampleCodec [1, 0, 0xff] = .ok typedData := by
  have haccepted : ∀ b ∈ ([[1, 0], [1, 1], [1, 0, 0xfe], [1, 0, 0xff]] : List Bytes),
      ∃ typedData, getEIP712TypedDataForMsg sampleCodec b = .ok typedData := by
    intro b hb
    simp only [List.mem_cons, List.not_mem_nil, or_false] at hb
    rcases hb with rfl | rfl | rfl | rfl <;> exact ⟨_, rfl⟩
  have hplain : contents sampleCodec [1, 0] = some (sampleContents "" []) := rfl
  have hgranted : contents sampleCodec [1, 1] = some (sampleContents "haqq1granter" []) := rfl
  have hmemo : contents sampleCodec [1, 0, 0xfe] = some (sampleContents "" [0xfe]) := rfl
  have hmemo' : contents sampleCodec [1, 0, 0xff] = some (sampleContents "" [0xff]) := rfl
  refine ⟨hplain, hgranted, ?_, hmemo, hmemo', ?_⟩
  · obtain ⟨typedData, h⟩ := haccepted [1, 0] (by simp)
    obtain ⟨typedData', h'⟩ := haccepted [1, 1] (by simp)
    obtain rfl := typedData_eq_of_shown hplain hgranted h h' rfl
    exact ⟨typedData, h, h'⟩
  · obtain ⟨typedData, h⟩ := haccepted [1, 0, 0xfe] (by simp)
    obtain ⟨typedData', h'⟩ := haccepted [1, 0, 0xff] (by simp)
    obtain rfl := typedData_eq_of_shown hmemo hmemo' h h' rfl
    exact ⟨typedData, h, h'⟩

end Haqq.Eip712
