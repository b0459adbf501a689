import Dsline.Library.Outcome
import Dsline.Ops.Whole
import Dsline.Pipeline.Collect
/-!
# Composing pipelines

A pipeline emits a list of items or raises. Without a batch it maps and
filters item by item, so two of them in a row are one. `collect` groups at
the first batch it finds; any further one lets items pass as they are.
-/

namespace Dsline

open Chunks Outcome

variable {F Obj Err : Type} [F64 F] (py : Python F Obj Err)

/-- What operators emit for a list of items, one by one, unless one raises. -/
def emit (ops : List (PipelineOp F Obj)) : List (Item F) → Option (List (Item F))
  | [] => some []
  | item :: items =>
      (runOps py ops item).toOption.bind fun result =>
        (emit ops items).map (result.toList ++ ·)

/-- The items of a list, in batches. -/
def batches (size : ℕ+) (items : List (Item F)) : List (Item F) :=
  (chunks size items).map Item.batch

/-- What a pipeline emits: the groups of what its operators up to the first
batch emit, through the operators behind it. -/
def emitted (ops : List (PipelineOp F Obj)) (source : List (Item F)) : Option (List (Item F)) :=
  match splitBatch ops with
  | (pre, none) => emit py pre source
  | (pre, some (size, post)) =>
      (emit py pre source).bind fun items => emit py post (batches size items)

variable {py}

/-! ## Item by item -/

theorem emit_cons (ops : List (PipelineOp F Obj)) (item : Item F) (items : List (Item F)) :
    emit py ops (item :: items) = (runOps py ops item).toOption.bind fun result =>
      (emit py ops items).map (result.toList ++ ·) := rfl

theorem emit_nil_ops (items : List (Item F)) : emit py [] items = some items := by
  induction items with
  | nil => rfl
  | cons item items ih =>
      rw [emit_cons, ih]
      rfl

theorem emit_append_items (ops : List (PipelineOp F Obj)) (items items' : List (Item F)) :
    emit py ops (items ++ items') = (emit py ops items).bind fun results =>
      (emit py ops items').map (results ++ ·) := by
  induction items with
  | nil => simp [emit]
  | cons item items ih =>
      rw [List.cons_append, emit_cons, emit_cons, ih]
      cases (runOps py ops item).toOption with
      | none => rfl
      | some result =>
          cases emit py ops items with
          | none => rfl
          | some results =>
              cases emit py ops items' with
              | none => rfl
              | some results' => simp

/-- **Operators in a row**: the second list runs on what the first one lets
through. -/
theorem runOps_append (ops ops' : List (PipelineOp F Obj)) (item : Item F) :
    (runOps py (ops ++ ops') item).toOption = (runOps py ops item).toOption.bind fun result =>
      match result with
      | some next => (runOps py ops' next).toOption
      | none => some none := by
  induction ops generalizing item with
  | nil => rfl
  | cons op ops ih =>
      rw [List.cons_append, runOps, runOps, toOption_bind, toOption_bind]
      cases (runOp py op item).toOption with
      | none => rfl
      | some result =>
          cases result with
          | none => rfl
          | some next => exact ih next

/-- **So do whole lists of items.** -/
theorem emit_append (ops ops' : List (PipelineOp F Obj)) (items : List (Item F)) :
    emit py (ops ++ ops') items = (emit py ops items).bind (emit py ops') := by
  induction items with
  | nil => rfl
  | cons item items ih =>
      rw [emit_cons, emit_cons, runOps_append, ih]
      cases (runOps py ops item).toOption with
      | none => rfl
      | some result =>
          cases result with
          | none => cases emit py ops items <;> simp
          | some next =>
              cases hitems : emit py ops items with
              | none => cases (runOps py ops' next).toOption <;> simp
              | some results =>
                  simp only [Option.bind_some, Option.map_some, Option.toList_some,
                    List.singleton_append, emit_cons]

/-- A batch that is not the first lets items pass as they are. -/
theorem emit_batch (size : ℕ+) (ops : List (PipelineOp F Obj)) (items : List (Item F)) :
    emit py (.batch size :: ops) items = emit py ops items := by
  induction items with
  | nil => rfl
  | cons item items ih =>
      rw [emit_cons, emit_cons, ih]
      rfl

/-! ## The loop of `collect` -/

theorem push_toOption (post : List (PipelineOp F Obj)) (item : Item F) (results : List (Item F)) :
    (push py post item results).toOption = (emit py post [item]).map (results ++ ·) := by
  rw [push, toOption_bind, emit_cons]
  cases (runOps py post item).toOption with
  | none => rfl
  | some result => cases result <;> simp [emit, Except.toOption]

theorem collectLoop_unbatched (pre : List (PipelineOp F Obj)) (source buf results : List (Item F)) :
    (collectLoop py pre none source buf results).toOption
      = (emit py pre source).map (results ++ ·) := by
  induction source generalizing buf results with
  | nil => simp [collectLoop, emit, Except.toOption]
  | cons item source ih =>
      rw [collectLoop, toOption_bind, emit_cons]
      cases (runOps py pre item).toOption with
      | none => rfl
      | some result =>
          cases result with
          | none =>
              rw [Option.bind_some, Option.bind_some, ih]
              simp
          | some next =>
              rw [Option.bind_some, Option.bind_some, ih]
              simp [Function.comp_def]

theorem emit_batches_cons {size : ℕ+} {group : List (Item F)} (h : group.length = size)
    (post : List (PipelineOp F Obj)) (items : List (Item F)) :
    emit py post (batches size (group ++ items)) = (emit py post [.batch group]).bind fun results =>
      (emit py post (batches size items)).map (results ++ ·) := by
  rw [batches, chunks_append h, List.map_cons, ← List.singleton_append, emit_append_items]
  rfl

/-- **The loop groups what the operators before the batch emit.** The buffer
is the beginning of the group under way. -/
theorem collectLoop_batched (pre post : List (PipelineOp F Obj)) (size : ℕ+)
    (source : List (Item F)) {buf : List (Item F)} (hbuf : buf.length < size)
    (results : List (Item F)) :
    (collectLoop py pre (some (size, post)) source buf results).toOption
      = (emit py pre source).bind fun items =>
        (emit py post (batches size (buf ++ items))).map (results ++ ·) := by
  induction source generalizing buf results with
  | nil =>
      -- the end of the source: a partial group, if there is one
      rw [collectLoop]
      split_ifs with hnil
      · subst hnil
        simp [emit, batches, chunks_nil, Except.toOption]
      · rw [push_toOption]
        simp [emit, batches, chunks_partial hnil hbuf.le]
  | cons item source ih =>
      rw [collectLoop, toOption_bind, emit_cons]
      cases (runOps py pre item).toOption with
      | none => rfl
      | some result =>
          cases result with
          | none =>
              rw [Option.bind_some, Option.bind_some, ih hbuf]
              simp
          | some next =>
              have hlen : (buf ++ [next]).length = buf.length + 1 := by simp
              rw [Option.bind_some, Option.bind_some]
              dsimp only
              split_ifs with hfull
              · -- the group is full
                have hgroup : (buf ++ [next]).length = size := by omega
                have hempty : ([] : List (Item F)).length < size := size.pos
                rw [toOption_bind, push_toOption]
                simp only [ih hempty, List.nil_append]
                cases emit py pre source with
                | none => cases emit py post [.batch (buf ++ [next])] <;> rfl
                | some items =>
                    simp only [Option.bind_some, Option.map_some, Option.toList_some]
                    rw [← List.append_assoc, emit_batches_cons hgroup]
                    cases emit py post [.batch (buf ++ [next])] with
                    | none => rfl
                    | some first => simp [Function.comp_def]
              · rw [ih (by omega)]
                cases emit py pre source <;> simp

/-- **What `collect` returns.** -/
theorem collect_toOption (ops : List (PipelineOp F Obj)) (source : List (Item F)) :
    (collect py ops source).toOption = emitted py ops source := by
  rw [collect, emitted]
  cases hsplit : splitBatch ops with
  | mk pre batched =>
      cases batched with
      | none =>
          dsimp only
          rw [collectLoop_unbatched]
          simp
      | some stage =>
          dsimp only
          have hempty : ([] : List (Item F)).length < stage.1 := stage.1.pos
          rw [collectLoop_batched pre stage.2 stage.1 source hempty]
          simp

/-! ## Two pipelines in a row -/

/-- Operators with a batch among them. -/
def HasBatch (ops : List (PipelineOp F Obj)) : Prop := (splitBatch ops).2.isSome = true

omit [F64 F] in
theorem splitBatch_cons_batch {op : PipelineOp F Obj} {size : ℕ+} (h : op.batchSize = some size)
    (ops : List (PipelineOp F Obj)) : splitBatch (op :: ops) = ([], some (size, ops)) := by
  rw [splitBatch, h]

omit [F64 F] in
theorem splitBatch_cons {op : PipelineOp F Obj} (h : op.batchSize = none)
    (ops : List (PipelineOp F Obj)) :
    splitBatch (op :: ops) = (op :: (splitBatch ops).1, (splitBatch ops).2) := by
  rw [splitBatch, h]

omit [F64 F] in
theorem splitBatch_append_unbatched {ops : List (PipelineOp F Obj)} (h : ¬ HasBatch ops)
    (ops' : List (PipelineOp F Obj)) :
    splitBatch (ops ++ ops') = (ops ++ (splitBatch ops').1, (splitBatch ops').2) := by
  induction ops with
  | nil => rfl
  | cons op ops ih =>
      rw [HasBatch] at h
      cases hop : op.batchSize with
      | some size =>
          rw [splitBatch_cons_batch hop] at h
          exact absurd rfl h
      | none =>
          rw [splitBatch_cons hop] at h
          rw [List.cons_append, splitBatch_cons hop, ih h, List.cons_append]

omit [F64 F] in
theorem splitBatch_unbatched {ops : List (PipelineOp F Obj)} (h : ¬ HasBatch ops) :
    splitBatch ops = (ops, none) := by
  have happend := splitBatch_append_unbatched h []
  rwa [List.append_nil, splitBatch, List.append_nil] at happend

omit [F64 F] in
/-- **The first batch of a list**, with what stands before and behind it. -/
theorem HasBatch.split {ops : List (PipelineOp F Obj)} (h : HasBatch ops) :
    ∃ pre size post, splitBatch ops = (pre, some (size, post)) ∧
      ops = pre ++ .batch size :: post ∧ ¬ HasBatch pre := by
  induction ops with
  | nil => cases h
  | cons op ops ih =>
      cases hop : op.batchSize with
      | some size =>
          have hbatch : op = .batch size := by
            cases op with
            | batch n => rw [Option.some.inj hop]
            | _ => cases hop
          exact ⟨[], size, ops, splitBatch_cons_batch hop ops, by rw [hbatch]; rfl,
            fun h => nomatch h⟩
      | none =>
          rw [HasBatch, splitBatch_cons hop] at h
          obtain ⟨pre, size, post, hsplit, hops, hpre⟩ := ih h
          refine ⟨op :: pre, size, post, by rw [splitBatch_cons hop, hsplit], ?_, ?_⟩
          · rw [hops, List.cons_append]
          · rw [HasBatch, splitBatch_cons hop]
            exact hpre

omit [F64 F] in
/-- What is appended stands behind the first batch. -/
theorem splitBatch_append_batched {ops pre post : List (PipelineOp F Obj)} {size : ℕ+}
    (h : splitBatch ops = (pre, some (size, post))) (ops' : List (PipelineOp F Obj)) :
    splitBatch (ops ++ ops') = (pre, some (size, post ++ ops')) := by
  have hbatch : HasBatch ops := by rw [HasBatch, h]; rfl
  obtain ⟨pre', size', post', hsplit, hops, hpre⟩ := hbatch.split
  rw [h] at hsplit
  obtain ⟨rfl, hstage⟩ := Prod.mk.inj hsplit
  obtain ⟨rfl, rfl⟩ := Prod.mk.inj (Option.some.inj hstage)
  rw [hops, List.append_assoc, splitBatch_append_unbatched hpre, List.cons_append,
    splitBatch_cons_batch (rfl : (PipelineOp.batch size : PipelineOp F Obj).batchSize = some size),
    List.append_nil]

/-- **Without a batch a pipeline extends what comes before it.** -/
theorem emitted_append_batched {ops ops' : List (PipelineOp F Obj)} (h : HasBatch ops)
    (source : List (Item F)) :
    emitted py (ops ++ ops') source = (emitted py ops source).bind (emit py ops') := by
  obtain ⟨pre, size, post, hsplit, -, -⟩ := h.split
  rw [emitted, emitted, splitBatch_append_batched hsplit, hsplit]
  dsimp only
  rw [Option.bind_assoc]
  simp only [emit_append]

theorem emitted_unbatched {ops : List (PipelineOp F Obj)} (h : ¬ HasBatch ops)
    (source : List (Item F)) : emitted py ops source = emit py ops source := by
  rw [emitted, splitBatch_unbatched h]

/-- A pipeline behind one without a batch runs on what that one emits. -/
theorem emitted_append_unbatched {ops : List (PipelineOp F Obj)} (h : ¬ HasBatch ops)
    (ops' : List (PipelineOp F Obj)) (source : List (Item F)) :
    emitted py (ops ++ ops') source = (emitted py ops source).bind (emitted py ops') := by
  rw [emitted_unbatched h]
  unfold emitted
  rw [splitBatch_append_unbatched h]
  cases hsplit : splitBatch ops' with
  | mk pre batched =>
      cases batched with
      | none => exact emit_append ops pre source
      | some stage => simp only [emit_append, Option.bind_assoc]

variable (py)

/-- **Two pipelines compose on a source**: together they yield what the
second yields on what the first one yields, or both raise. -/
def ComposeOn (ops ops' : List (PipelineOp F Obj)) (source : List (Item F)) : Prop :=
  (collect py (ops ++ ops') source).toOption
    = (collect py ops source >>= collect py ops').toOption

/-- The operators behind the first batch of the second pipeline make the same
of the items that reach it as of their groups. -/
def GroupsUnseen (ops ops' : List (PipelineOp F Obj)) (source : List (Item F)) : Prop :=
  ∀ pre size post, splitBatch ops' = (pre, some (size, post)) →
    ∀ items, emitted py (ops ++ pre) source = some items →
      emit py post items = emit py post (batches size items)

variable {py}

theorem composeOn_iff_emitted {ops ops' : List (PipelineOp F Obj)} {source : List (Item F)} :
    ComposeOn py ops ops' source ↔
      emitted py (ops ++ ops') source = (emitted py ops source).bind (emitted py ops') := by
  rw [ComposeOn, toOption_bind]
  simp only [collect_toOption]

/-- With a batch in both, the second one is what makes the difference. -/
theorem emitted_eq_iff_groupsUnseen {ops ops' : List (PipelineOp F Obj)} (h : HasBatch ops)
    (h' : HasBatch ops') (source : List (Item F)) :
    emitted py (ops ++ ops') source = (emitted py ops source).bind (emitted py ops') ↔
      GroupsUnseen py ops ops' source := by
  obtain ⟨pre, size, post, hsplit, hops', -⟩ := h'.split
  have htogether : emitted py (ops ++ ops') source
      = (emitted py (ops ++ pre) source).bind (emit py post) := by
    rw [emitted_append_batched h, emitted_append_batched h, hops']
    simp only [emit_append, emit_batch, Option.bind_assoc]
  have hapart : (emitted py ops source).bind (emitted py ops')
      = (emitted py (ops ++ pre) source).bind fun items => emit py post (batches size items) := by
    rw [emitted_append_batched h, Option.bind_assoc]
    unfold emitted
    rw [hsplit]
  rw [htogether, hapart]
  constructor
  · intro heq pre' size' post' hsplit' items hitems
    rw [hsplit] at hsplit'
    obtain ⟨rfl, hstage⟩ := Prod.mk.inj hsplit'
    obtain ⟨rfl, rfl⟩ := Prod.mk.inj (Option.some.inj hstage)
    rwa [hitems] at heq
  · intro hunseen
    cases hitems : emitted py (ops ++ pre) source with
    | none => rfl
    | some items => exact hunseen pre size post hsplit items hitems

/-- **Where two pipelines compose.** At most one of them has a batch, or the
batch of the second one does not show in what they yield. -/
theorem emitted_append_iff (ops ops' : List (PipelineOp F Obj)) (source : List (Item F)) :
    emitted py (ops ++ ops') source = (emitted py ops source).bind (emitted py ops') ↔
      ¬ HasBatch ops ∨ ¬ HasBatch ops' ∨ GroupsUnseen py ops ops' source := by
  by_cases h : HasBatch ops
  · by_cases h' : HasBatch ops'
    · simp [h, h', emitted_eq_iff_groupsUnseen h h']
    · refine iff_of_true ?_ (.inr (.inl h'))
      rw [emitted_append_batched h]
      exact congrArg _ (funext fun items => (emitted_unbatched h' items).symm)
  · exact iff_of_true (emitted_append_unbatched h ops' source) (.inl h)

omit [F64 F] in
/-- A batch is not one of its own items. -/
theorem batch_not_mem (items : List (Item F)) : Item.batch items ∉ items := by
  intro hmem
  have hlt := List.sizeOf_lt_of_mem hmem
  have hbatch := Item.batch.sizeOf_spec items
  omega

omit [F64 F] in
/-- **Only the empty list is its own groups.** -/
theorem eq_batches_iff {size : ℕ+} {items : List (Item F)} :
    items = batches size items ↔ items = [] := by
  constructor
  · intro h
    cases items with
    | nil => rfl
    | cons item items =>
        rw [batches, chunks_cons, List.map_cons] at h
        have hitem := (List.cons.inj h).1
        refine absurd ?_ (batch_not_mem ((item :: items).take size))
        obtain ⟨n, hn⟩ := Nat.exists_eq_succ_of_ne_zero size.ne_zero
        rw [← hitem, hn, List.take_succ_cons]
        exact List.mem_cons_self
  · rintro rfl
    rfl

/-- **A batch groups what comes before it**, if no batch does, or nothing
comes. -/
theorem emitted_batch_iff (ops : List (PipelineOp F Obj)) (size : ℕ+) (source : List (Item F)) :
    emitted py (ops ++ [.batch size]) source = (emitted py ops source).map (batches size) ↔
      ¬ HasBatch ops ∨ ∀ items, emitted py ops source = some items → items = [] := by
  have hbatch : ∀ items, emitted py [.batch size] items = some (batches size items) := by
    intro items
    change (emit py [] items).bind (fun items => emit py [] (batches size items)) = _
    rw [emit_nil_ops, Option.bind_some, emit_nil_ops]
  by_cases h : HasBatch ops
  · have hpass : emitted py (ops ++ [.batch size]) source = emitted py ops source := by
      rw [emitted_append_batched h]
      have hsame : (emit py [.batch size] : List (Item F) → _) = some :=
        funext fun items => (emit_batch size [] items).trans (emit_nil_ops items)
      rw [hsame]
      cases emitted py ops source <;> rfl
    rw [hpass]
    cases hitems : emitted py ops source with
    | none => simp
    | some items => simp [h, eq_batches_iff]
  · refine iff_of_true ?_ (.inl h)
    rw [emitted_append_unbatched h]
    simp only [funext hbatch]
    cases emitted py ops source <;> rfl

/-- **Pipelines in a row.** `collect` with two operator lists one behind the
other yields what it yields with the second on what it yields with the first,
exactly when at most one of them has a batch or the second one's does not
show; and a batch at the end groups what the operators before it yield,
exactly when they have none or yield nothing. -/
theorem collect_append_iff (py : Python F Obj Err) (ops ops' : List (PipelineOp F Obj))
    (source : List (Item F)) :
    (ComposeOn py ops ops' source ↔
      ¬ HasBatch ops ∨ ¬ HasBatch ops' ∨ GroupsUnseen py ops ops' source) ∧
    ∀ size : ℕ+, (collect py (ops ++ [.batch size]) source).toOption
        = (collect py ops source).toOption.map (batches size) ↔
      ¬ HasBatch ops ∨ ∀ items, emitted py ops source = some items → items = [] := by
  refine ⟨composeOn_iff_emitted.trans (emitted_append_iff ops ops' source), fun size => ?_⟩
  rw [collect_toOption, collect_toOption]
  exact emitted_batch_iff ops size source

/-- A Python without objects that mean anything: no operator here calls it. -/
def noPython : Python WholeF64 Unit Unit where
  call _ _ := .error ()
  isTruthy _ := .error ()
  downcastDict _ := none
  extractString _ := .error ()
  extractFloat _ := none
  ofFloat _ := ()
  ofDict _ := ()
  ofList _ := ()
  valueError _ := ()

/-- **Two batches in a row.** Three items in twos are two batches, and those
in twos are one; together the two operators yield the first two. -/
theorem collect_two_batches :
    ¬ ∀ (ops ops' : List (PipelineOp WholeF64 Unit)) (source : List (Item WholeF64)),
      ComposeOn noPython ops ops' source := by
  intro h
  have hitems := h [.batch 2] [.batch 2]
    [.float (.finite 1), .float (.finite 2), .float (.finite 3)]
  have hcount := congrArg (Option.map List.length) hitems
  exact absurd hcount (by decide)

end Dsline
