import Mathlib.Data.List.Basic
/-!
# Paths and the nodes they denote

A path is walked one component at a time, from the root if it starts with a
slash and from the working directory otherwise. Empty components and single
dots stand still. What entering a component leads to is the file system's
business: links, mounts and `..` are in there.
-/

namespace Path

/-- A file system: its root, and the node a component leads to. -/
structure FileSystem (Node : Type*) where
  root : Node
  enter : Node → List Char → Node

/-- The components of a path that lead somewhere. -/
def components (path : List Char) : List (List Char) :=
  (path.splitOn '/').filter fun part => part ≠ [] ∧ part ≠ ['.']

/-- A path behind a base: itself if it is absolute, else appended with a
slash between them unless there is one or the base is empty. -/
def join (base part : List Char) : List Char :=
  if part.head? = some '/' then part
  else if base = [] ∨ base.getLast? = some '/' then base ++ part
  else base ++ '/' :: part

/-- A name of one component. -/
def IsName (part : List Char) : Prop := part ≠ [] ∧ part ≠ ['.'] ∧ '/' ∉ part

instance (part : List Char) : Decidable (IsName part) :=
  inferInstanceAs (Decidable (part ≠ [] ∧ part ≠ ['.'] ∧ '/' ∉ part))

/-- The node a path denotes. -/
def FileSystem.resolve {Node : Type*} (fs : FileSystem Node) (cwd : Node) (path : List Char) :
    Node :=
  (components path).foldl fs.enter (if path.head? = some '/' then fs.root else cwd)

variable {Node : Type*} {fs : FileSystem Node} {cwd : Node} {base part : List Char}

theorem components_append_slash (base part : List Char) :
    components (base ++ '/' :: part) = components base ++ components part := by
  rw [components, List.splitOn_append_cons_self, List.filter_append]
  rfl

theorem components_name (h : IsName part) : components part = [part] := by
  rw [components, List.splitOn_eq_singleton h.2.2]
  simp [h.1, h.2.1]

theorem head?_name (h : IsName part) : part.head? ≠ some '/' := by
  intro hhead
  exact h.2.2 (List.mem_of_mem_head? hhead)

/-- A name behind a base adds one component, and the walk starts where it
did. -/
theorem components_join (h : IsName part) :
    components (join base part) = components base ++ [part] := by
  rw [join, if_neg (head?_name h)]
  split
  · rename_i hbase
    rcases hbase with rfl | hlast
    · rw [List.nil_append, components_name h]
      rfl
    · obtain ⟨front, rfl⟩ := List.getLast?_eq_some_iff.1 hlast
      rw [List.append_assoc, List.singleton_append, components_append_slash, components_name h,
        components_append_slash, show components [] = [] from rfl, List.append_nil]
  · rw [components_append_slash, components_name h]

theorem head?_join (h : IsName part) :
    (join base part).head? = some '/' ↔ base.head? = some '/' := by
  rw [join, if_neg (head?_name h)]
  cases base with
  | nil => simp [head?_name h]
  | cons c base =>
      split
      · rfl
      · rfl

/-- Behind one base, different names are different paths. -/
theorem join_inj {part' : List Char} (h : IsName part) (h' : IsName part')
    (heq : join base part = join base part') : part = part' := by
  rw [join, join, if_neg (head?_name h), if_neg (head?_name h')] at heq
  split at heq
  · exact List.append_cancel_left heq
  · exact (List.cons_inj_right _).1 (List.append_cancel_left heq)

/-- **A name behind a base is entered from what the base denotes.** -/
theorem resolve_join (h : IsName part) :
    fs.resolve cwd (join base part) = fs.enter (fs.resolve cwd base) part := by
  rw [FileSystem.resolve, components_join h, List.foldl_append, FileSystem.resolve]
  simp only [head?_join h, List.foldl_cons, List.foldl_nil]

/-- The empty path denotes the working directory. -/
theorem resolve_nil : fs.resolve cwd [] = cwd := rfl

end Path
