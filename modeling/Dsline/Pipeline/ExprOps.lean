import Dsline.Ops.Parser
import Dsline.Pipeline.Compose
import Dsline.Pipeline.Stream
/-!
# Expression operators in both runtimes

The pipeline crate and the Python pipeline build operators of the same
expressions and run them each in its own way: closures piped one into the
next, and a list of operators that `collect` walks. Built of the same texts
they collect the same (`expr_chain_agrees`).
-/

namespace Dsline

open Feed

variable {F I O Next Obj Err : Type} [F64 F] (u : Unicode) (record : I → Record F)

/-! ## The pipeline crate -/

/-- `filter_expr`. -/
def filterExpr (expr : Text) : Except Failure (Operator I I) :=
  match (parseExpr u expr : Except ParseError (Expr F)) with
  | .error _ => .error (.ofChannel (.invalidConfig "invalid filter expression"))
  | .ok ast => .ok
      { State := Unit
        init := ()
        call := fun item =>
          let keep := (evalBool ast (record item)).getD false
          pure (if keep then [item] else []) }

/-- `map_expr`. -/
def mapExpr (expr : Text) : Except Failure (Operator I F) :=
  match (parseExpr u expr : Except ParseError (Expr F)) with
  | .error _ => .error (.ofChannel (.invalidConfig "invalid map expression"))
  | .ok ast => .ok
      { State := Unit
        init := ()
        call := fun item => pure [(eval ast (record item)).getD F64.nan] }

/-- Filters piped behind a pipeline, in order. -/
def pipeFilters : Pipeline I I → List Text → Except Failure (Pipeline I I)
  | pipeline, [] => .ok pipeline
  | pipeline, expr :: exprs => do
      let op ← filterExpr u record expr
      pipeFilters (pipeline.pipe op) exprs

/-- A pipeline of filters and a map. -/
def exprPipeline (filters : List Text) (map : Text) : Except Failure (Pipeline I F) := do
  let pipeline ← pipeFilters u record .identity filters
  let op ← mapExpr u record map
  return pipeline.pipe op

/-! ## The Python pipeline -/

/-- `PyPipeline::filter_expr` for each text, in order. -/
def filterOps : List Text → Except ParseError (List (PipelineOp F Obj))
  | [] => .ok []
  | expr :: exprs => do
      let ast ← parseExpr u expr
      let ops ← filterOps exprs
      .ok (.filterExpr ast :: ops)

/-- The same filters and map as a Python pipeline's operators. -/
def exprOps (filters : List Text) (map : Text) : Except ParseError (List (PipelineOp F Obj)) := do
  let ops ← filterOps u filters
  let ast ← parseExpr u map
  .ok (ops ++ [.mapExpr ast])

/-! ## What each of them computes -/

section

variable {u record} {p : Pipeline I O} {f : I → Option O} {items : List I}

/-- A pipeline that keeps no state and never fails: it makes one item of an
item, or none. -/
def Computes (p : Pipeline I O) (f : I → Option O) : Prop :=
  ∀ items : List I, p.collected (items.map .ok) = .ok (items.filterMap f)

theorem feed_computes (call : I → EStateM Failure Unit (List O)) (f : I → Option O)
    (h : ∀ i, call i () = .ok (f i).toList ()) (items : List I) :
    feed call (items.map .ok) () = ⟨items.filterMap f, none, ()⟩ := by
  induction items with
  | nil => rfl
  | cons i items ih =>
      rw [List.map_cons, feed_ok (h i), ih, List.filterMap_cons]
      cases f i <;> rfl

theorem computes_identity : Computes (Pipeline.identity : Pipeline I I) some := by
  intro items
  rw [collected_eq]
  have hfeed := feed_computes (fun i : I => pure [i]) some (fun _ => rfl) items
  exact Fed.toExcept_eq_ok.2 ⟨congrArg Fed.failure hfeed, congrArg Fed.outputs hfeed⟩

/-- A piped operator that keeps no state and never fails. -/
theorem Computes.pipe (hp : Computes p f) (call : O → EStateM Failure Unit (List Next))
    (g : O → Option Next) (hcall : ∀ o, call o () = .ok (g o).toList ()) :
    Computes (p.pipe ⟨Unit, (), call⟩) fun i => (f i).bind g := by
  intro items
  have hnext : (Pipeline.mk ⟨Unit, (), call⟩ : Pipeline O Next).collected
      ((items.filterMap f).map .ok) = .ok ((items.filterMap f).filterMap g) := by
    have hfeed := feed_computes call g hcall (items.filterMap f)
    rw [collected_eq]
    exact Fed.toExcept_eq_ok.2 ⟨congrArg Fed.failure hfeed, congrArg Fed.outputs hfeed⟩
  rw [List.filterMap_filterMap] at hnext
  exact (pipe_collected_iff p ⟨⟨Unit, (), call⟩⟩ _ _).2 ⟨_, hp items, hnext⟩

/-- All the filters let the item pass. -/
def keeps (asts : List (Expr F)) (rec : Record F) : Bool :=
  asts.all fun ast => (evalBool ast rec).getD false

theorem filterExpr_error {expr : Text} {e : ParseError}
    (h : (parseExpr u expr : Except ParseError (Expr F)) = .error e) :
    filterExpr u record expr =
      .error (.ofChannel (.invalidConfig "invalid filter expression")) := by
  rw [filterExpr, h]

theorem filterExpr_ok {expr : Text} {ast : Expr F} (h : parseExpr u expr = .ok ast) :
    filterExpr u record expr = .ok ⟨Unit, (), fun item =>
      pure (if (evalBool ast (record item)).getD false then [item] else [])⟩ := by
  rw [filterExpr, h]

/-- **Filters are built in both runtimes or in neither**, and let the same
items pass. -/
theorem pipeFilters_filterOps (filters : List Text) {p : Pipeline I I} {f : I → Option I}
    (hp : Computes p f) :
    (∃ asts : List (Expr F), ∃ p' : Pipeline I I, pipeFilters u record p filters = .ok p' ∧
      (filterOps u filters : Except ParseError (List (PipelineOp F Obj)))
        = .ok (asts.map .filterExpr) ∧
      Computes p' fun i => (f i).bind fun j => if keeps asts (record j) then some j else none) ∨
    ((∃ e, pipeFilters u record p filters = .error e) ∧
      ∃ e, (filterOps u filters : Except ParseError (List (PipelineOp F Obj))) = .error e) := by
  induction filters generalizing p f with
  | nil =>
      refine .inl ⟨[], p, rfl, rfl, ?_⟩
      simpa [keeps] using hp
  | cons expr exprs ih =>
      cases hparse : (parseExpr u expr : Except ParseError (Expr F)) with
      | error e =>
          refine .inr ⟨⟨_, by rw [pipeFilters, filterExpr_error hparse]; rfl⟩, e, ?_⟩
          rw [filterOps, hparse]
          rfl
      | ok ast =>
          have hstep := hp.pipe
            (fun item => pure (if (evalBool ast (record item)).getD false then [item] else []))
            (fun j => if (evalBool ast (record j)).getD false then some j else none)
            (fun j => by cases (evalBool ast (record j)).getD false <;> rfl)
          have hbuild : pipeFilters u record p (expr :: exprs)
              = pipeFilters u record (p.pipe ⟨Unit, (), fun item =>
                pure (if (evalBool ast (record item)).getD false then [item] else [])⟩) exprs := by
            rw [pipeFilters, filterExpr_ok hparse]
            rfl
          rw [hbuild]
          rcases ih hstep with ⟨asts, p', hp', hops, hcomp⟩ | ⟨herr, e, herrOps⟩
          · refine .inl ⟨ast :: asts, p', hp', ?_, ?_⟩
            · rw [filterOps, hparse]
              show (filterOps u exprs >>= fun ops =>
                Except.ok (PipelineOp.filterExpr ast :: ops)) = _
              rw [hops]
              rfl
            · have hsame : (fun i => ((f i).bind fun j =>
                  if (evalBool ast (record j)).getD false then some j else none).bind fun j =>
                    if keeps asts (record j) then some j else none)
                  = fun i => (f i).bind fun j =>
                    if keeps (ast :: asts) (record j) then some j else none := by
                funext i
                cases f i with
                | none => rfl
                | some j =>
                    show ((if (evalBool ast (record j)).getD false then some j else none).bind _)
                      = if keeps (ast :: asts) (record j) then some j else none
                    rw [keeps, List.all_cons]
                    cases (evalBool ast (record j)).getD false <;> rfl
              rw [← hsame]
              exact hcomp
          · refine .inr ⟨herr, e, ?_⟩
            rw [filterOps, hparse]
            show (filterOps u exprs >>= fun ops => Except.ok (PipelineOp.filterExpr ast :: ops)) = _
            rw [herrOps]
            rfl

/-! ## The operators of `collect` -/

variable {py : Python F Obj Err}

theorem runOps_keep {op : PipelineOp F Obj} {item next : Item F}
    (h : runOp py op item = .ok (some next)) (ops : List (PipelineOp F Obj)) :
    runOps py (op :: ops) item = runOps py ops next := by
  rw [runOps, h]
  rfl

theorem runOps_drop {op : PipelineOp F Obj} {item : Item F} (h : runOp py op item = .ok none)
    (ops : List (PipelineOp F Obj)) : runOps py (op :: ops) item = .ok none := by
  rw [runOps, h]
  rfl

theorem runOps_exprs (asts : List (Expr F)) (ast : Expr F) (item : Item F) :
    runOps py (asts.map .filterExpr ++ [.mapExpr ast]) item
      = .ok (if keeps asts item.asRecord then
          some (.float ((eval ast item.asRecord).getD F64.nan)) else none) := by
  induction asts with
  | nil => rfl
  | cons first asts ih =>
      rw [List.map_cons, List.cons_append, keeps, List.all_cons]
      cases hkeep : (evalBool first item.asRecord).getD false with
      | false =>
          have hop : runOp py (.filterExpr first) item = .ok none := by rw [runOp, hkeep]; rfl
          rw [runOps_drop hop]
          rfl
      | true =>
          have hop : runOp py (.filterExpr first) item = .ok (some item) := by
            rw [runOp, hkeep]
            rfl
          rw [runOps_keep hop]
          exact ih

omit [F64 F] in
theorem not_hasBatch_exprs (asts : List (Expr F)) (ast : Expr F) :
    ¬ HasBatch (asts.map .filterExpr ++ [.mapExpr ast] : List (PipelineOp F Obj)) := by
  rw [HasBatch]
  induction asts with
  | nil => exact fun h => by cases h
  | cons first asts ih =>
      have hfirst : (PipelineOp.filterExpr first : PipelineOp F Obj).batchSize = none := rfl
      rw [List.map_cons, List.cons_append, splitBatch_cons hfirst]
      exact ih

/-- Operators that never raise emit item by item. -/
theorem emit_eq_some {ops : List (PipelineOp F Obj)} {g : Item F → Option (Item F)}
    (h : ∀ item, runOps py ops item = .ok (g item)) (items : List (Item F)) :
    emit py ops items = some (items.filterMap g) := by
  induction items with
  | nil => rfl
  | cons item items ih =>
      rw [emit_cons, h, ih, List.filterMap_cons]
      cases g item <;> rfl

end

/-- The pipelines of both runtimes, built of one list of texts, agree on a
list of items: neither is built, or they collect the same. -/
def RuntimesAgree (py : Python F Obj Err) (toItem : I → Item F) (items : List I) :
    Except Failure (Pipeline I F) → Except ParseError (List (PipelineOp F Obj)) → Prop
  | .ok pipeline, .ok ops => ∃ values, pipeline.collected (items.map .ok) = .ok values ∧
      collect py ops (items.map toItem) = .ok (values.map .float)
  | .error _, .error _ => True
  | _, _ => False

/-- **The two runtimes agree on expressions.** For all texts of filters and a
map, over every list of items and whatever Python does: one refuses to build
the pipeline exactly if the other does; and if they build it, both collect,
neither fails, and they collect the same numbers in the same order. -/
theorem expr_chain_agrees (py : Python F Obj Err) (u : Unicode) (toItem : I → Item F)
    (filters : List Text) (map : Text) (items : List I) :
    RuntimesAgree py toItem items (exprPipeline u (fun i => (toItem i).asRecord) filters map)
      (exprOps u filters map) := by
  have hbuilt : (∃ asts : List (Expr F), ∃ p' : Pipeline I I,
      pipeFilters u (fun i => (toItem i).asRecord) .identity filters = .ok p' ∧
      (filterOps u filters : Except ParseError (List (PipelineOp F Obj)))
        = .ok (asts.map .filterExpr) ∧
      Computes p' fun i => (some i).bind fun j =>
        if keeps asts (toItem j).asRecord then some j else none) ∨
      ((∃ e, pipeFilters u (fun i => (toItem i).asRecord) .identity filters = .error e) ∧
        ∃ e, (filterOps u filters : Except ParseError (List (PipelineOp F Obj))) = .error e) :=
    pipeFilters_filterOps filters computes_identity
  rw [exprPipeline, exprOps]
  rcases hbuilt with ⟨asts, p', hp', hops, hcomp⟩ | ⟨⟨e, herr⟩, e', herrOps⟩
  · rw [hp', hops]
    cases hmap : (parseExpr u map : Except ParseError (Expr F)) with
    | error e =>
        have hcrate : mapExpr u (fun i => (toItem i).asRecord) map
            = .error (.ofChannel (.invalidConfig "invalid map expression")) := by
          rw [mapExpr, hmap]
        simp only [bind, Except.bind, hcrate]
        exact trivial
    | ok ast =>
        have hcrate : mapExpr u (fun i => (toItem i).asRecord) map = .ok ⟨Unit, (), fun item =>
            pure [(eval ast (toItem item).asRecord).getD F64.nan]⟩ := by
          rw [mapExpr, hmap]
        have hall := hcomp.pipe (fun item => pure [(eval ast (toItem item).asRecord).getD F64.nan])
          (fun i => some ((eval ast (toItem i).asRecord).getD F64.nan)) fun i => rfl
        simp only [bind, Except.bind, hcrate, pure, Except.pure]
        refine ⟨_, hall items, ?_⟩
        have hemit : emit py (asts.map .filterExpr ++ [.mapExpr ast]) (items.map toItem) = _ :=
          emit_eq_some (runOps_exprs asts ast) (items.map toItem)
        have hcollect : (collect py (asts.map .filterExpr ++ [.mapExpr ast])
            (items.map toItem)).toOption = _ := collect_toOption _ _
        rw [emitted_unbatched (not_hasBatch_exprs asts ast), hemit] at hcollect
        cases hres : collect py (asts.map .filterExpr ++ [.mapExpr ast]) (items.map toItem) with
        | error e =>
            rw [hres] at hcollect
            cases hcollect
        | ok results =>
            rw [hres] at hcollect
            rw [Option.some.inj hcollect, List.filterMap_map, List.map_filterMap]
            refine congrArg (fun g => Except.ok (items.filterMap g)) (funext fun i => ?_)
            simp only [Function.comp_apply, Option.bind_some]
            split <;> rfl
  · rw [herr, herrOps]
    exact trivial

end Dsline
