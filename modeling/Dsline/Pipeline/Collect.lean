import Dsline.Library.Chunks
import Dsline.Ops.Expr
/-!
# Pipelines

The operators of a pipeline and how `collect` runs them over a source. Python
is a parameter: its callables are functions that return an object or raise.
The source and the results are items; the conversions in between are those
around a call.
-/

namespace Dsline

open Chunks

/-- An item: a number, named numbers, or a batch of items. A map is kept in
the order its keys came in. -/
inductive Item (F : Type) where
  | float (v : F)
  | dict (map : List (Text × F))
  | batch (items : List (Item F))

/-- What the pipeline asks of Python. -/
structure Python (F Obj Err : Type) where
  /-- `call1` with one argument. -/
  call : Obj → Obj → Except Err Obj
  isTruthy : Obj → Except Err Bool
  /-- The pairs of a `dict`. -/
  downcastDict : Obj → Option (List (Obj × Obj))
  extractString : Obj → Except Err Text
  /-- A number, if the object converts to one. -/
  extractFloat : Obj → Option F
  ofFloat : F → Obj
  ofDict : List (Text × F) → Obj
  ofList : List Obj → Obj
  valueError : String → Err

variable {F Obj Err : Type} [F64 F] (py : Python F Obj Err)

namespace Item

/-- `HashMap::insert`. -/
def insert (map : List (Text × F)) (key : Text) (val : F) : List (Text × F) :=
  map.filter (·.1 ≠ key) ++ [(key, val)]

/-- The loop of `Item::from_py` over a dict: values that are no numbers are
skipped. -/
def dictFromPy : List (Obj × Obj) → List (Text × F) → Except Err (List (Text × F))
  | [], map => .ok map
  | (k, v) :: pairs, map => do
      let key ← py.extractString k
      match py.extractFloat v with
      | some val => dictFromPy pairs (insert map key val)
      | none => dictFromPy pairs map

/-- `Item::from_py`. -/
def fromPy (obj : Obj) : Except Err (Item F) :=
  match py.downcastDict obj with
  | some pairs => do
      let map ← dictFromPy py pairs []
      .ok (.dict map)
  | none =>
      match py.extractFloat obj with
      | some val => .ok (.float val)
      | none => .error (py.valueError "pipeline item must be a number or dict[str, number]")

mutual

/-- `Item::to_py`. -/
def toPy : Item F → Obj
  | .float v => py.ofFloat v
  | .dict map => py.ofDict map
  | .batch items => py.ofList (toPyAll items)

/-- The elements of a batch, converted. -/
def toPyAll : List (Item F) → List Obj
  | [] => []
  | item :: items => toPy item :: toPyAll items

end

/-- `RecordAdapter::column`. -/
def asRecord : Item F → Record F
  | .float v => fun name => if name = ['x'] then some v else none
  | .dict map => fun name => (map.find? (·.1 = name)).map (·.2)
  | .batch _ => fun _ => none

end Item

/-- An operator. A batch has a size of one at least: `PyPipeline::batch`
refuses zero. -/
inductive PipelineOp (F Obj : Type) where
  | filterExpr (ast : Expr F)
  | mapExpr (ast : Expr F)
  | filterPy (callable : Obj)
  | mapPy (callable : Obj)
  | mapPyBatch (callable : Obj)
  | filterPyBatch (callable : Obj)
  | batch (size : ℕ+)
  | selectDict (columns : List Text)

/-- A callable applied to an item, and its result as an item. -/
def callMap (callable : Obj) (item : Item F) : Except Err (Item F) := do
  let result ← py.call callable (item.toPy py)
  Item.fromPy py result

/-- A callable applied to an item, and whether its result is truthy. -/
def callFilter (callable : Obj) (item : Item F) : Except Err Bool := do
  let result ← py.call callable (item.toPy py)
  py.isTruthy result

/-- The elements of a batch, each mapped. -/
def mapElements (callable : Obj) : List (Item F) → Except Err (List (Item F))
  | [] => .ok []
  | elem :: elements => do
      let result ← callMap py callable elem
      let results ← mapElements callable elements
      .ok (result :: results)

/-- The elements of a batch that are kept. -/
def filterElements (callable : Obj) : List (Item F) → Except Err (List (Item F))
  | [] => .ok []
  | elem :: elements => do
      let keep ← callFilter py callable elem
      let kept ← filterElements callable elements
      .ok (if keep then elem :: kept else kept)

/-- One operator of `run_ops` on an item: the next item, or none if it is
dropped. -/
def runOp (op : PipelineOp F Obj) (item : Item F) : Except Err (Option (Item F)) :=
  match op with
  -- what has no value is dropped by a filter and NaN behind a map
  | .filterExpr ast => .ok (if (evalBool ast item.asRecord).getD false then some item else none)
  | .mapExpr ast => .ok (some (.float ((eval ast item.asRecord).getD F64.nan)))
  | .filterPy callable => do
      let keep ← callFilter py callable item
      .ok (if keep then some item else none)
  | .mapPy callable => do
      let result ← callMap py callable item
      .ok (some result)
  | .mapPyBatch callable =>
      match item with
      | .batch elements => do
          let results ← mapElements py callable elements
          .ok (some (.batch results))
      | item => do
          let result ← callMap py callable item
          .ok (some result)
  | .filterPyBatch callable =>
      match item with
      | .batch elements => do
          let kept ← filterElements py callable elements
          .ok (some (.batch kept))
      | item => do
          let keep ← callFilter py callable item
          .ok (if keep then some item else none)
  | .selectDict columns =>
      match item with
      | .dict map => .ok (some (.dict (map.filter (·.1 ∈ columns))))
      | item => .ok (some item)
  -- `collect` looks for the first batch only: a further one lets its items pass
  | .batch _ => .ok (some item)

/-- `run_ops`. -/
def runOps : List (PipelineOp F Obj) → Item F → Except Err (Option (Item F))
  | [], item => .ok (some item)
  | op :: ops, item => do
      match ← runOp py op item with
      | some next => runOps ops next
      | none => .ok none

/-- The size of a batch. -/
def PipelineOp.batchSize : PipelineOp F Obj → Option ℕ+
  | .batch size => some size
  | _ => none

/-- The operators before the first batch, and its size with the operators
behind it, if there is one. -/
def splitBatch : List (PipelineOp F Obj) →
    List (PipelineOp F Obj) × Option (ℕ+ × List (PipelineOp F Obj))
  | [] => ([], none)
  | op :: ops =>
      match op.batchSize with
      -- what is behind the first batch, further batches with it
      | some size => ([], some (size, ops))
      | none => (op :: (splitBatch ops).1, (splitBatch ops).2)

/-- Run the operators behind the batch on an item, and append what comes
out. -/
def push (post : List (PipelineOp F Obj)) (item : Item F) (results : List (Item F)) :
    Except Err (List (Item F)) := do
  match ← runOps py post item with
  | some processed => .ok (results ++ [processed])
  | none => .ok results

/-- The loop of `collect` over the source, with the items buffered for the
batch and the results so far, and the flush of what is left in the buffer at
its end. -/
def collectLoop (pre : List (PipelineOp F Obj)) (batched : Option (ℕ+ × List (PipelineOp F Obj))) :
    List (Item F) → List (Item F) → List (Item F) → Except Err (List (Item F))
  | [], buf, results =>
      match batched with
      | none => .ok results
      -- the source has ended: what is in the buffer is the last group, short or not
      | some (_, post) => if buf = [] then .ok results else push py post (.batch buf) results
  | item :: source, buf, results => do
      match ← runOps py pre item with
      | none => collectLoop pre batched source buf results
      | some item =>
          match batched with
          | none => collectLoop pre batched source buf (results ++ [item])
          | some (size, post) =>
              if size ≤ (buf ++ [item]).length then do
                let results ← push py post (.batch (buf ++ [item])) results
                collectLoop pre batched source [] results
              else collectLoop pre batched source (buf ++ [item]) results

/-- `PyPipeline::collect`. -/
def collect (ops : List (PipelineOp F Obj)) (source : List (Item F)) : Except Err (List (Item F)) :=
  collectLoop py (splitBatch ops).1 (splitBatch ops).2 source [] []

end Dsline
