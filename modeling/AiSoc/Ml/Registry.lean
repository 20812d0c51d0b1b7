import AiSoc.Library.RowStore
import AiSoc.Library.Transition
import AiSoc.Security.Permissions
import Mathlib.Data.List.Sort

namespace Registry

open Permissions (Uuid Timestamp)
open RowStore

section Rows

inductive Status where
  | training
  | shadow
  | active
  | inactive
  | failed
  deriving DecidableEq

structure ModelRegistry where
  modelName : String
  modelVersion : String
  status : Status
  trainedAt : Option Timestamp
  createdAt : Timestamp
  deriving DecidableEq

def ModelRegistry.isActive (modelName : String) (model : ModelRegistry) : Bool :=
  model.modelName = modelName && model.status = .active

-- train_model registers its row before it fits; train_incident_classifier registers what it
-- has fitted
inductive Training where
  | isolationForest
  | incidentClassifier (now : Timestamp)

def Training.registered (training : Training) (modelName modelVersion : String)
    (createdAt : Timestamp) : ModelRegistry :=
  match training with
  | .isolationForest => ⟨modelName, modelVersion, .training, none, createdAt⟩
  | .incidentClassifier now => ⟨modelName, modelVersion, .shadow, some now, createdAt⟩

end Rows

section Queries

-- ORDER BY trained_at DESC, created_at DESC: a null comes first
def precedes (model other : ModelRegistry) : Prop :=
  match model.trainedAt, other.trainedAt with
  | none, none => other.createdAt ≤ model.createdAt
  | none, some _ => True
  | some _, none => False
  | some trainedAt, some trainedAt' =>
      trainedAt' < trainedAt ∨ trainedAt' = trainedAt ∧ other.createdAt ≤ model.createdAt

instance (model other : ModelRegistry) : Decidable (precedes model other) := by
  unfold precedes
  split <;> infer_instance

def activeRows (registry : Table Uuid ModelRegistry) (modelName : String) :
    List (Uuid × ModelRegistry) :=
  registry.keys.filterMap fun id =>
    ((registry.committed id).filter (ModelRegistry.isActive modelName)).map fun model => (id, model)

-- what a session without changes of its own is given
def getActive (registry : Table Uuid ModelRegistry) (modelName : String) : Option Uuid :=
  (((activeRows registry modelName).insertionSort fun p q => precedes p.2 q.2).head?).map Prod.fst

end Queries

section Transactions

-- where the transaction of a training stands; seen is how many activations of its model were
-- committed when its UPDATE read the table
inductive Task where
  | idle
  | registered (id : Uuid) (modelName : String)
  | deactivating (id : Uuid) (modelName : String) (trainedAt : Timestamp) (todo : List Uuid)
      (seen : Nat)
  | activated (id : Uuid) (modelName : String) (seen : Nat)
  | failing (id : Uuid) (modelName : String)
  | finished

structure World where
  registry : Table Uuid ModelRegistry
  tasks : Nat → Task
  -- the committed activations, the last one first
  activations : List (String × Uuid)

def start : World :=
  ⟨.empty, fun _ => .idle, []⟩

def World.setTask (w : World) (t : Nat) (task : Task) : World :=
  { w with tasks := Function.update w.tasks t task }

def World.activationsOf (w : World) (modelName : String) : List Uuid :=
  (w.activations.filter fun p => p.1 = modelName).map Prod.snd

-- the unique constraint of model_version: an insert waits for or fails on another version
def taken (registry : Table Uuid ModelRegistry) (modelVersion : String) : Bool :=
  registry.keys.any fun id =>
    (registry.committed id).any (fun model => model.modelVersion = modelVersion) ||
      (registry.lock id).any fun p => p.2.modelVersion = modelVersion

def create (w : World) (t : Nat) (id : Uuid) (training : Training)
    (modelName modelVersion : String) (createdAt : Timestamp) : Option World :=
  if taken w.registry modelVersion then none
  else
    (w.registry.insert t id (training.registered modelName modelVersion createdAt)).map
      fun registry => { w with registry := registry }.setTask t (.registered id modelName)

-- activate: the UPDATE reads its targets,
def beginDeactivate (w : World) (t : Nat) (id : Uuid) (modelName : String)
    (trainedAt : Timestamp) : World :=
  let todo := (w.registry.matching t (ModelRegistry.isActive modelName)).filter (· ≠ id)
  w.setTask t (.deactivating id modelName trainedAt todo (w.activationsOf modelName).length)

-- waits for each of them and writes it if it is still active,
def deactivate (registry : Table Uuid ModelRegistry) (t : Nat) (id : Uuid) (modelName : String) :
    Option (Table Uuid ModelRegistry) :=
  (registry.recheckRow t id (ModelRegistry.isActive modelName) fun model =>
    { model with status := .inactive }).map Prod.snd

-- and the flush writes the row of the model
def flush (registry : Table Uuid ModelRegistry) (t : Nat) (id : Uuid)
    (change : ModelRegistry → ModelRegistry) : Option (Table Uuid ModelRegistry) :=
  (registry.recheckRow t id (fun _ => true) change).map Prod.snd

def ModelRegistry.activated (trainedAt : Timestamp) (model : ModelRegistry) : ModelRegistry :=
  { model with status := .active, trainedAt := some trainedAt }

inductive Label where
  | create (t : Nat) (id : Uuid) (training : Training) (modelName modelVersion : String)
      (createdAt : Timestamp)
  | beginActivate (t : Nat) (trainedAt : Timestamp)
  | next (t : Nat)
  | fail (t : Nat)
  | commit (t : Nat)
  | rollback (t : Nat)

-- one row of the UPDATE, or the flush after its last one
def advance (w : World) (t : Nat) : Option World :=
  match w.tasks t with
  | .deactivating id modelName trainedAt (target :: todo) seen =>
      (deactivate w.registry t target modelName).map fun registry =>
        { w with registry := registry }.setTask t (.deactivating id modelName trainedAt todo seen)
  | .deactivating id modelName trainedAt [] seen =>
      (flush w.registry t id (ModelRegistry.activated trainedAt)).map fun registry =>
        { w with registry := registry }.setTask t (.activated id modelName seen)
  | _ => none

-- the handler of train_model; the exception that it raises again ends the transaction
def fail (w : World) (t : Nat) : Option World :=
  match w.tasks t with
  | .registered id modelName =>
      (flush w.registry t id fun model => { model with status := .failed }).map fun registry =>
        { w with registry := registry }.setTask t (.failing id modelName)
  | _ => none

-- a model that is not activated is committed in shadow mode only
def commit (w : World) (t : Nat) : Option World :=
  match w.tasks t with
  | .registered id _ =>
      if (w.registry.view t id).any fun model => model.status = .shadow then
        some ({ w with registry := w.registry.commit t }.setTask t .finished)
      else none
  | .activated id modelName _ =>
      some ({ w with
        registry := w.registry.commit t
        activations := (modelName, id) :: w.activations }.setTask t .finished)
  | _ => none

def step (w : World) : Label → Option World
  | .create t id training modelName modelVersion createdAt =>
      match w.tasks t with
      | .idle => create w t id training modelName modelVersion createdAt
      | _ => none
  | .beginActivate t trainedAt =>
      match w.tasks t with
      | .registered id modelName => some (beginDeactivate w t id modelName trainedAt)
      | _ => none
  | .next t => advance w t
  | .fail t => fail w t
  | .commit t => commit w t
  -- an exception, a failed gate or a lost connection
  | .rollback t => some ({ w with registry := w.registry.rollback t }.setTask t .finished)

end Transactions

end Registry
