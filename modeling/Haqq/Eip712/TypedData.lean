import Haqq.Lib.FinMap

/-!
# EIP-712 typed data

`ethereum/eip712`: the JSON of an amino sign document becomes typed data that a wallet can show and
sign.  A JSON object lists its fields by ascending key and has no key twice, as amino writes it.
-/

namespace Haqq.Eip712

open Lib

inductive Json
  | null
  | bool (value : Bool)
  | number (value : Int)
  | string (text : String)
  | array (items : List Json)
  | object (fields : List (String × Json))

inductive Eip712Error
  /-- "failed to JSON unmarshal data as object" -/
  | notObject
  /-- "no messages found in payload, unable to parse" -/
  | noMessages
  /-- "expected type array of messages, cannot parse" -/
  | notArray
  /-- "malformed payload received, did not expect to find key at field %v" -/
  | malformedPayload (field : String)
  /-- "msg at index %d is not valid JSON: %v" -/
  | invalidMessage (index : Nat)
  /-- "message is not valid JSON, cannot parse types" -/
  | cannotParseTypes
  /-- "malformed message type value, expected type string" -/
  | malformedType
  /-- "exceeded maximum number of duplicates for a single type definition" -/
  | tooManyDuplicates
  | unmarshal
  /-- "body contains unsupported fields: TimeoutHeight, ExtensionOptions, or
  NonCriticalExtensionOptions" -/
  | unsupportedFields
  /-- "invalid number of signer infos provided, expected 1 got %v" -/
  | signerInfos (count : Nat)
  /-- "could not unpack message object with error %w" -/
  | unpackMessage
  /-- "unable to build EIP-712 payload: transaction does contain any messages" -/
  | emptyTransaction
  /-- "error getting signers. %w" -/
  | getSigners
  /-- "unable to build EIP-712 payload: expect exactly 1 signer" -/
  | notOneSigner
  /-- "unable to build EIP-712 payload: multiple signers detected" -/
  | multipleSigners
  /-- "invalid chain ID passed as argument" -/
  | invalidChainID
  /-- "could not decode sign doc as either Amino or Protobuf.\n amino: %v\n protobuf: %v" -/
  | neither
  | panic
  deriving DecidableEq, Repr

abbrev Payload := FinMap String Json

def msgFieldForIndex (i : Nat) : String := "msg" ++ toString i

def getPayloadMessages (payload : Payload) : Except Eip712Error (List Json) :=
  match payload.get "msgs" with
  | none => .error .noMessages
  | some .null => .ok []
  | some (.array items) => .ok items
  | some _ => .error .notArray

def payloadWithNewMessage (payload : Payload) (msg : Json) (index : Nat) :
    Except Eip712Error Payload :=
  let field := msgFieldForIndex index
  if (payload.get field).isSome then .error (.malformedPayload field)
  else
    match msg with
    | .object _ => .ok (payload.set field msg)
    | _ => .error (.invalidMessage index)

def addMessages : List Json → Nat → Payload → Except Eip712Error Payload
  | [], _, payload => .ok payload
  | msg :: rest, index, payload => do
    let payload ← payloadWithNewMessage payload msg index
    addMessages rest (index + 1) payload

def flattenPayloadMessages (payload : Payload) : Except Eip712Error (Payload × Nat) := do
  let msgs ← getPayloadMessages payload
  let flattened ← addMessages msgs 0 payload
  return (flattened.erase "msgs", msgs.length)

def unmarshalToJSONObject : Json → Except Eip712Error Payload
  | .object fields => .ok (.ofList fields)
  | _ => .error .notObject

/-! ## Types -/

structure TypeField where
  name : String
  type : String
  deriving DecidableEq, Repr

abbrev Types := FinMap String (List TypeField)

def rootPrefix : String := "_"

def typePrefix : String := "Type"

def maxDuplicateTypeDefs : Nat := 1000

def splitAt (separator : Char) (text : String) : List String :=
  (text.toList.splitOn separator).map String.ofList

section Types

-- `cases.Title`, which turns the first letter of a word into a capital
variable (title : String → String)

/-- "_.foo_bar.baz" becomes "TypeFooBarBaz". -/
def sanitizeTypedef (text : String) : String :=
  String.join ((splitAt '.' text).map fun part =>
    if part = rootPrefix then typePrefix else String.join ((splitAt '_' part).map title))

def typeDefForPrefix (pathPrefix rootType : String) : String :=
  if pathPrefix = rootPrefix then rootType else sanitizeTypedef title pathPrefix

def prefixForSubField (pathPrefix fieldName : String) : String := pathPrefix ++ "." ++ fieldName

def typeDefWithIndex (typeDef : String) (index : Nat) : String := typeDef ++ toString index

def addTypesFrom (typeMap : Types) (typeDef : String) (types : List TypeField) :
    Nat → Nat → Except Eip712Error (String × Types)
  | 0, _ => .error .tooManyDuplicates
  | left + 1, index =>
    let indexed := typeDefWithIndex typeDef index
    match typeMap.get indexed with
    | none => .ok (indexed, typeMap.set indexed types)
    | some existing =>
      if types = existing then .ok (indexed, typeMap)
      else addTypesFrom typeMap typeDef types left (index + 1)

/-- Adds a type under the first index at which it is or nothing is. -/
def addTypesToRoot (typeMap : Types) (typeDef : String) (types : List TypeField) :
    Except Eip712Error (String × Types) :=
  addTypesFrom typeMap typeDef types maxDuplicateTypeDefs 0

def getEthTypeForJSON : Json → Option String
  | .bool _ => some "bool"
  | .number _ => some "int64"
  | .string _ => some "string"
  | _ => none

mutual

/-- Null and arrays of arrays get no type. -/
def addElementType (rootType pathPrefix : String) :
    Json → Types → Except Eip712Error (Option String × Types)
  | .object fields, typeMap => do
    let (types, typeMap) ← addFieldTypes rootType pathPrefix fields typeMap
    let (typeDef, typeMap) ←
      addTypesToRoot typeMap (typeDefForPrefix title pathPrefix rootType) types
    return (some (sanitizeTypedef title typeDef), typeMap)
  | value, typeMap => .ok (getEthTypeForJSON value, typeMap)

/-- From the last key to the first. -/
def addFieldTypes (rootType pathPrefix : String) :
    List (String × Json) → Types → Except Eip712Error (List TypeField × Types)
  | [], typeMap => .ok ([], typeMap)
  | (name, .array []) :: rest, typeMap => do
    let (types, typeMap) ← addFieldTypes rootType pathPrefix rest typeMap
    return (types ++ [⟨name, "string[]"⟩], typeMap)
  | (name, .array (item :: _)) :: rest, typeMap => do
    let (types, typeMap) ← addFieldTypes rootType pathPrefix rest typeMap
    let (type, typeMap) ←
      addElementType rootType (prefixForSubField pathPrefix name) item typeMap
    return (types ++ type.toList.map fun type => ⟨name, type ++ "[]"⟩, typeMap)
  | (name, value) :: rest, typeMap => do
    let (types, typeMap) ← addFieldTypes rootType pathPrefix rest typeMap
    let (type, typeMap) ←
      addElementType rootType (prefixForSubField pathPrefix name) value typeMap
    return (types ++ type.toList.map fun type => ⟨name, type⟩, typeMap)

end

def recursivelyAddTypesToRoot (typeMap : Types) (rootType : String)
    (fields : List (String × Json)) :
    Except Eip712Error (String × Types) := do
  let (types, typeMap) ← addFieldTypes title rootType rootPrefix fields typeMap
  addTypesToRoot typeMap (typeDefForPrefix title rootPrefix rootType) types

def msgRootType (fields : List (String × Json)) : Except Eip712Error String :=
  match fields.lookup "type" with
  | some (.string msgType) =>
    if msgType = "" then .error .malformedType
    else .ok (typePrefix ++ (splitAt '/' msgType).getLastD "")
  | _ => .error .malformedType

def addMsgTypeDefToTxSchema (typeMap : Types) (msgField msgTypeDef : String) : Types :=
  typeMap.set "Tx" ((typeMap.get "Tx").getD [] ++ [⟨msgField, msgTypeDef⟩])

def addMsgTypesToRoot (typeMap : Types) (msgField : String) :
    Option Json → Except Eip712Error Types
  | some (.object fields) => do
    let rootType ← msgRootType fields
    let (msgTypeDef, typeMap) ← recursivelyAddTypesToRoot title typeMap rootType fields
    return addMsgTypeDefToTxSchema typeMap msgField msgTypeDef
  | _ => .error .cannotParseTypes

def baseTypes : Types :=
  .ofList
    [("EIP712Domain", [⟨"name", "string"⟩, ⟨"version", "string"⟩, ⟨"chainId", "uint256"⟩,
        ⟨"verifyingContract", "string"⟩, ⟨"salt", "string"⟩]),
      ("Tx", [⟨"account_number", "string"⟩, ⟨"chain_id", "string"⟩, ⟨"fee", "Fee"⟩,
        ⟨"memo", "string"⟩, ⟨"sequence", "string"⟩]),
      ("Fee", [⟨"amount", "Coin[]"⟩, ⟨"gas", "string"⟩]),
      ("Coin", [⟨"denom", "string"⟩, ⟨"amount", "string"⟩])]

def createEIP712Types (payload : Payload) (numPayloadMsgs : Nat) : Except Eip712Error Types :=
  (List.range numPayloadMsgs).foldlM (fun typeMap i =>
    addMsgTypesToRoot title typeMap (msgFieldForIndex i)
      (payload.get (msgFieldForIndex i))) baseTypes

end Types

structure Domain where
  name : String
  version : String
  chainId : Option Nat
  verifyingContract : String
  salt : String
  deriving DecidableEq, Repr

structure TypedData where
  types : Types
  primaryType : String
  domain : Domain
  message : Payload

def createEIP712Domain (chainID : UInt64) : Except Eip712Error Domain :=
  if 2 ^ 63 ≤ chainID.toNat then .error .panic
  else .ok ⟨"Cosmos Web3", "1.0.0", some chainID.toNat, "cosmos", "0"⟩

def wrapTxToTypedData (title : String → String) (chainID : UInt64) (data : Json) :
    Except Eip712Error TypedData := do
  let basicPayload ← unmarshalToJSONObject data
  let (payload, numPayloadMsgs) ← flattenPayloadMessages basicPayload
  let types ← createEIP712Types title payload numPayloadMsgs
  let domain ← createEIP712Domain chainID
  return ⟨types, "Tx", domain, payload⟩

def TypedData.isValid (typedData : TypedData) : Bool :=
  typedData.message.keys ≠ ∅ && typedData.types.keys ≠ ∅ && typedData.primaryType ≠ "" &&
    typedData.domain ≠ ⟨"", "", none, "", ""⟩

end Haqq.Eip712
