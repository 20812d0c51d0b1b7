import AiSoc.Library.HashChain
import AiSoc.Library.JsonNesting
import AiSoc.Library.PyText

namespace Response

open PyJson

section Chain

structure Sha256 where
  hexdigest : ByteArray → String
  length : ∀ input, (hexdigest input).length = 64

def canonicalJson (data : Json) : String :=
  dumps (sortKeys data)

def hashInput (prevHash : String) (entryPayload : Obj) : ByteArray :=
  prevHash.toByteArray ++ (canonicalJson (.obj entryPayload)).toByteArray

def computeEntryHash (sha256 : Sha256) (prevHash : String) (entryPayload : Obj) : String :=
  sha256.hexdigest (hashInput prevHash entryPayload)

def isText (value : Json) (s : String) : Bool :=
  match value with
  | .str t => t = s
  | _ => false

def payloadOf (record : Obj) : Obj :=
  record.remove ["record_hash", "id"]

-- the checks of one record; the next prev_hash is its own hash
def verifyRecord (py : PyText) (sha256 : Sha256) (currentPrevHash : String) (index : Nat)
    (record : Obj) : Except String String :=
  let recordPrevHash := (record.get "prev_hash").getD .null
  let recordHash := (record.get "record_hash").getD .null
  let recordId := py.str ((record.get "id").getD (.str ("index_" ++ toString index)))
  let expectedHash := computeEntryHash sha256 currentPrevHash (payloadOf record)
  if !truthy recordPrevHash || !truthy recordHash then
    .error ("Missing hash pointers at record " ++ recordId)
  else if !isText recordPrevHash currentPrevHash then
    .error ("Broken chain linkage at record " ++ recordId ++ ": expected prev_hash " ++
      currentPrevHash ++ ", found " ++ py.str recordPrevHash)
  else if !isText recordHash expectedHash then
    .error ("Hash mismatch at record " ++ recordId ++
      ": record payload was tampered with or recalculated incorrectly")
  else .ok expectedHash

def verifyFrom (py : PyText) (sha256 : Sha256) : String → Nat → List Obj → Except String Unit
  | _, _, [] => .ok ()
  | current, index, record :: records =>
      match verifyRecord py sha256 current index record with
      | .error reason => .error reason
      | .ok recordHash => verifyFrom py sha256 recordHash (index + 1) records

def verifyChain (py : PyText) (sha256 : Sha256) (records : List Obj) (initialPrevHash : String) :
    Bool × Option String :=
  match verifyFrom py sha256 initialPrevHash 0 records with
  | .ok () => (true, none)
  | .error reason => (false, some reason)

-- a payload extended with prev_hash, and the record it becomes
def entryOf (prevHash : String) (payload : Obj) : Obj :=
  payload.set "prev_hash" (.str prevHash)

def recordOf (sha256 : Sha256) (prevHash : String) (payload : Obj) : Obj :=
  let entry := entryOf prevHash payload
  entry.set "record_hash" (.str (computeEntryHash sha256 prevHash entry))

def chain (sha256 : Sha256) : String → List Obj → List Obj
  | _, [] => []
  | prevHash, payload :: payloads =>
      recordOf sha256 prevHash payload ::
        chain sha256 (computeEntryHash sha256 prevHash (entryOf prevHash payload)) payloads

end Chain

end Response
