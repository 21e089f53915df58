import Mathlib.Tactic.SplitIfs
import Sprocket.Files.Tree

/-!
# Writing to a tree

Writing a file makes the directories above it that are missing and puts the content at the place
that the path leads to. Directories are never removed, so a path that leads to a place goes on doing
so, and the files at all other places stay as they are.

* `Tree.file?`: the content of the file at a place;
* `Tree.Keeps`: a tree has the directories of another one;
* `place_of_keeps`: a path leads to the same place in both;
* `makeDirectories_spec`: making directories changes no file;
* `Wrote`, `wrote_of_write`: what writing one file leaves.
-/

namespace Sprocket.Files.Tree

/-- The content of the file at a place. -/
def file? (t : Tree) (place : Place) : Option String :=
  match t.node? place with
  | some (.file content) => some content
  | _ => none

/-- A tree has the working directory and the directories of another one. -/
structure Keeps (t t' : Tree) : Prop where
  workingDirectory : t'.workingDirectory = t.workingDirectory
  directory : ∀ place, t.node? place = some .directory → t'.node? place = some .directory

theorem Keeps.refl (t : Tree) : t.Keeps t := ⟨rfl, fun _ h => h⟩

theorem Keeps.trans {t t' t'' : Tree} (h : t.Keeps t') (h' : t'.Keeps t'') : t.Keeps t'' :=
  ⟨h'.workingDirectory.trans h.workingDirectory, fun place hdir =>
    h'.directory place (h.directory place hdir)⟩

variable {t t' : Tree}

/-! ### Nodes -/

theorem node?_put {place : Place} (h : place ≠ []) (node : Node) (other : Place) :
    (t.put place node).node? other = if other = place then some node else t.node? other := by
  unfold node? put
  by_cases hother : other = place
  · subst hother
    simp [h]
  · have hne : (place == other) = false := beq_eq_false_iff_ne.2 (Ne.symm hother)
    have hfind : (t.nodes.filter (·.1 != place)).find? (·.1 == other) =
        t.nodes.find? (·.1 == other) := by
      rw [List.find?_filter]
      congr 1
      funext p
      by_cases hp : p.1 = other <;> simp [hp, hother]
    simp [hother, hne, hfind]

/-- Putting a node where no directory is keeps the directories. -/
theorem keeps_put {place : Place} (h : t.node? place ≠ some .directory) (node : Node) :
    t.Keeps (t.put place node) := by
  have hplace : place ≠ [] := by
    rintro rfl
    exact h rfl
  refine ⟨rfl, fun other hother => ?_⟩
  rw [node?_put hplace, if_neg, hother]
  rintro rfl
  exact h hother

theorem file?_put {place : Place} (h : place ≠ []) (node : Node) (other : Place) :
    (t.put place node).file? other =
      if other = place then (match node with | .file content => some content | .directory => none)
      else t.file? other := by
  unfold file?
  rw [node?_put h]
  by_cases hother : other = place
  · rw [if_pos hother, if_pos hother]
    cases node <;> rfl
  · rw [if_neg hother, if_neg hother]

/-- A path is read as what the file is at its place. -/
theorem read_eq_ok_iff {path content : String} :
    t.read path = .ok content ↔
      ∃ place, t.place path = .ok place ∧ t.file? place = some content := by
  unfold read file?
  cases t.place path with
  | error e => simp
  | ok place => cases hnode : t.node? place with
    | none => simp [hnode]
    | some node => cases node <;> simp [hnode]

/-! ### Paths -/

/-- A walk leads to the same place in a tree that keeps the directories. -/
theorem walk_of_keeps (h : t.Keeps t') {place target : Place} {parts : List String}
    (hwalk : t.walk place parts = .ok target) : t'.walk place parts = .ok target := by
  induction parts generalizing place with
  | nil => exact hwalk
  | cons part rest ih =>
    rw [walk] at hwalk ⊢
    cases hnode : t.node? place with
    | none => simp [hnode] at hwalk
    | some node =>
      cases node with
      | file content => simp [hnode] at hwalk
      | directory =>
        rw [hnode] at hwalk
        rw [h.directory place hnode]
        dsimp only at hwalk ⊢
        split_ifs at hwalk ⊢ <;> exact ih hwalk

/-- A path leads to the same place in a tree that keeps the directories. -/
theorem place_of_keeps (h : t.Keeps t') {path : String} {target : Place}
    (hplace : t.place path = .ok target) : t'.place path = .ok target := by
  unfold place start at hplace ⊢
  rw [h.workingDirectory]
  split_ifs at hplace ⊢ <;> exact walk_of_keeps h hplace

/-! ### Directories -/

/-- A directory that is made was missing, and nothing else changes. -/
theorem makeDirectory_eq_ok {place : Place} {parts : List String}
    (h : t.makeDirectory place parts = .ok t') :
    ∃ target, t.node? target = none ∧ t' = t.put target .directory := by
  unfold makeDirectory at h
  cases hwalk : t.walk place parts with
  | error e => simp [hwalk] at h
  | ok target =>
    rw [hwalk] at h
    dsimp only at h
    split at h <;> try cases h
    exact ⟨target, ‹_›, rfl⟩

theorem makeDirectory_spec {place : Place} {parts : List String}
    (h : t.makeDirectory place parts = .ok t') : t.Keeps t' ∧ t'.file? = t.file? := by
  obtain ⟨target, hnode, rfl⟩ := makeDirectory_eq_ok h
  have htarget : target ≠ [] := by
    rintro rfl
    cases hnode
  refine ⟨keeps_put (by simp [hnode]) _, funext fun other => ?_⟩
  rw [file?_put htarget]
  by_cases hother : other = target
  · rw [if_pos hother, hother, file?, hnode]
  · rw [if_neg hother]

/-- Making directories, as far as it goes, keeps those that are there and changes no file. -/
theorem makeDirectories_spec (t : Tree) (place : Place) (parts : List String) :
    t.Keeps (t.makeDirectories place parts).1 ∧
      (t.makeDirectories place parts).1.file? = t.file? := by
  induction parts with
  | nil => exact ⟨.refl t, rfl⟩
  | cons part before ih =>
    rw [makeDirectories]
    cases hmade : t.makeDirectory place (before.reverse ++ [part]) with
    | ok made => exact makeDirectory_spec hmade
    | error e =>
      cases e with
      | notFound =>
        dsimp only
        cases habove : t.makeDirectories place before with
        | mk above failure =>
          rw [habove] at ih
          cases failure with
          | some e => exact ih
          | none =>
            dsimp only
            cases hlast : above.makeDirectory place (before.reverse ++ [part]) with
            | error e => exact ih
            | ok made =>
              obtain ⟨hkeeps, hfiles⟩ := makeDirectory_spec hlast
              exact ⟨ih.1.trans hkeeps, hfiles.trans ih.2⟩
      | alreadyExists => exact ⟨.refl t, rfl⟩
      | notDirectory => exact ⟨.refl t, rfl⟩
      | isDirectory => exact ⟨.refl t, rfl⟩

/-! ### Files -/

/-- What writing a file leaves: the path leads to a place that holds the content, and the files at
all other places are as they were. -/
structure Wrote (t : Tree) (path content : String) (t' : Tree) : Prop where
  keeps : t.Keeps t'
  placed : ∃ target, t'.place path = .ok target ∧
    ∀ place, t'.file? place = if place = target then some content else t.file? place

theorem overwrite_eq_ok {path content : String} (h : t.overwrite path content = .ok t') :
    ∃ target, t.place path = .ok target ∧ t.node? target ≠ some .directory ∧
      t' = t.put target (.file content) := by
  unfold overwrite at h
  cases hplace : t.place path with
  | error e => simp [hplace] at h
  | ok target =>
    rw [hplace] at h
    dsimp only at h
    cases hnode : t.node? target with
    | none =>
      rw [hnode] at h
      split at h <;> cases h <;> exact ⟨target, rfl, by simp [hnode], rfl⟩
    | some node =>
      cases node with
      | directory => simp [hnode] at h
      | file old =>
        rw [hnode] at h
        cases h
        exact ⟨target, rfl, by simp [hnode], rfl⟩

theorem wrote_of_overwrite {path content : String} (h : t.overwrite path content = .ok t') :
    t.Wrote path content t' := by
  obtain ⟨target, hplace, hnode, rfl⟩ := overwrite_eq_ok h
  have htarget : target ≠ [] := by
    rintro rfl
    exact hnode rfl
  have hkeeps := keeps_put hnode (.file content)
  exact ⟨hkeeps, target, place_of_keeps hkeeps hplace, file?_put htarget (.file content)⟩

/-- A file whose writing is not answered with an error is written. -/
theorem wrote_of_write {path content : String} (h : t.write path content = (t', none)) :
    t.Wrote path content t' := by
  -- the tree with the directories above the file
  obtain ⟨above, ⟨hkeeps, hfiles⟩, hwritten⟩ : ∃ above,
      (t.Keeps above ∧ above.file? = t.file?) ∧ above.overwrite path content = .ok t' := by
    unfold write at h
    cases hparent : Path.parent? path with
    | none =>
      rw [hparent] at h
      dsimp only at h
      split at h <;> cases h
      exact ⟨t, ⟨.refl t, rfl⟩, ‹_›⟩
    | some directory =>
      rw [hparent] at h
      have hspec := makeDirectories_spec t (t.start directory.toList)
        (steps directory.toList).reverse
      dsimp only at h
      cases hmade : t.makeDirectories (t.start directory.toList)
          (steps directory.toList).reverse with
      | mk above failure =>
        rw [hmade] at h hspec
        cases failure with
        | some e => cases h
        | none =>
          dsimp only at h
          split at h <;> cases h
          exact ⟨above, hspec, ‹_›⟩
  obtain ⟨hkeeps', target, hplace, hfiles'⟩ := wrote_of_overwrite hwritten
  exact ⟨hkeeps.trans hkeeps', target, hplace, hfiles ▸ hfiles'⟩

end Sprocket.Files.Tree
