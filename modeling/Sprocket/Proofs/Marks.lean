import Sprocket.Proofs.Places
import Sprocket.Proofs.Sheets

/-!
# The settings of a sheet

The lines of a sheet tell which settings name its groups, its procedures and their methods, and
where in the text the values of these settings stand. That agrees with what is read from the text:
the groups read from it have the names these settings give them. It also agrees with the search in
the text, which finds all of these settings.

* `Sheet.Group`, `Sheet.Procedure`: what names a group, a procedure and its method;
* `Sheet.groups`: the settings that do so, told from the lines;
* `groupsOf_of_read?`: what is read from the text of a sheet;
* `marked_groups`: the settings stand in the text in order, and are found there.
-/

namespace Sprocket.Sheet

open Toml Toml.Entries

variable {α β : Type}

/-! ### What is named -/

/-- What names a procedure and its method. -/
structure Procedure (α : Type) where
  name : Option α
  method : Option α

/-- What names a group, and its procedures in order. -/
structure Group (α : Type) where
  name : Option α
  procedures : List (Procedure α)

/-- Sets what a key of a procedure stands for. -/
def Procedure.set (key : String) (a : α) (p : Procedure α) : Procedure α :=
  if key = "name" then { p with name := some a }
  else if key = "method" then { p with method := some a }
  else p

def Procedure.map (f : α → β) (p : Procedure α) : Procedure β := ⟨p.name.map f, p.method.map f⟩

namespace Group

/-- Sets what a key of a group stands for. -/
def set (key : String) (a : α) (g : Group α) : Group α :=
  if key = "name" then { g with name := some a } else g

/-- Changes the last procedure. -/
def onLast (f : Procedure α → Procedure α) (g : Group α) : Group α :=
  { g with procedures := g.procedures.modifyLast f }

/-- Begins another procedure. -/
def grow (g : Group α) : Group α := { g with procedures := g.procedures ++ [⟨none, none⟩] }

def map (f : α → β) (g : Group α) : Group β := ⟨g.name.map f, g.procedures.map (·.map f)⟩

end Group

/-- The header in force and the groups so far. -/
structure Scan (α : Type) where
  header : Option Header
  groups : List (Group α)

namespace Scan

/-- Goes on after a header. -/
def turn (h : Header) (c : Scan α) : Scan α :=
  match h with
  | .group => ⟨some h, c.groups ++ [⟨none, []⟩]⟩
  | .procedure => ⟨some h, c.groups.modifyLast Group.grow⟩
  | _ => ⟨some h, c.groups⟩

/-- Sets what a key stands for under the header in force. -/
def place (key : String) (a : α) (c : Scan α) : Scan α :=
  match c.header with
  | some .group => { c with groups := c.groups.modifyLast (·.set key a) }
  | some .procedure => { c with groups := c.groups.modifyLast (·.onLast (·.set key a)) }
  | _ => c

/-- Goes on after a line, given what is noted of a text under a key. -/
def note (mark : String → String → α) (c : Scan α) (line : Line) : Scan α :=
  match line.content with
  | .header h => c.turn h
  | .text [] key value => c.place key (mark key value)
  | _ => c

def map (f : α → β) (c : Scan α) : Scan β := ⟨c.header, c.groups.map (·.map f)⟩

end Scan

/-- A text under a key, and the offset of the text in bytes. -/
structure Setting where
  key : String
  value : String
  offset : Nat
  deriving DecidableEq, Repr

/-- Goes through lines of which the first begins at an offset. -/
def scan : Nat → Scan Setting → List Line → Scan Setting
  | _, c, [] => c
  | offset, c, line :: rest =>
    scan (offset + Text.byteLength (line.chars ++ line.close rest))
      (c.note (fun key value =>
        ⟨key, value, offset + Text.byteLength (line.indent ++ lead [] key)⟩) line) rest

/-- The settings of the groups of a sheet. -/
def groups (lines : List Line) : List (Group Setting) := (scan 0 ⟨none, []⟩ lines).groups

/-! ### What a table names -/

/-- What names the procedure of a table. -/
def procedureOf (es : Entries) : Procedure String := ⟨es.textAt? "name", es.textAt? "method"⟩

/-- What names the group of a table. -/
def groupOf (es : Entries) : Group String :=
  ⟨es.textAt? "name", listAt "procedures" procedureOf es⟩

/-- What names the groups of a document. -/
def groupsOf (root : Entries) : List (Group String) := listAt "contexts" groupOf root

/-- A group with nothing but tables for procedures. -/
abbrev TidyGroup : Entries → Prop := Tidy "procedures" Proper

/-- A document with nothing but tidy tables for groups. -/
abbrev TidyRoot : Entries → Prop := Tidy "contexts" TidyGroup

/-- A value without tables. -/
def Untabled (v : Value) : Prop := (∀ items, v ≠ .array true items) ∧ Clean (some v)

theorem untabled_string (text : String) : Untabled (.string text) := by
  refine ⟨fun items h => ?_, fun ofTables items h => ?_⟩ <;> cases h

theorem untabled_of_flat {v : Value} (h : Flat v) : Untabled v := by
  refine ⟨?_, ?_⟩
  · rintro items rfl
    cases h.1
  · rintro ofTables items heq
    obtain rfl := Option.some.inj heq
    obtain ⟨rfl, -⟩ := id h
    exact h

theorem textAt?_addNew {es es' : Entries} {key : String} {v : Value}
    (h : es.addNew key v = some es') (key' : String) :
    es'.textAt? key' =
      if key' = key then (match v with | .string text => some text | _ => none)
      else es.textAt? key' := by
  obtain ⟨-, hsome, hothers, -⟩ := addNew_eq_some h
  by_cases hkey : key' = key
  · rw [if_pos hkey, hkey, textAt?, hsome]
    cases v <;> rfl
  · rw [if_neg hkey, textAt?, textAt?, hothers key' hkey]

/-- A value that is no text under a key of its own names nothing. -/
def Silent (path : List String) (v : Value) : Prop := path ≠ [] ∨ ∀ text, v ≠ .string text

section

variable {key text : String} {v : Value} {path : List String} {es es' : Entries}

theorem textAt?_addDotted_of_silent (hs : Silent path v) (h : addDotted key v path es = some es')
    (key' : String) : es'.textAt? key' = es.textAt? key' := by
  cases path with
  | nil =>
    rw [textAt?_addNew h]
    split
    next hkey =>
      obtain ⟨hnone, -⟩ := addNew_eq_some h
      rw [hkey, textAt?, hnone]
      cases v with
      | string text => exact absurd rfl ((hs.resolve_left (absurd rfl)) text)
      | _ => rfl
    next => rfl
  | cons step path => exact (under_addDotted h).textAt? key'

theorem proper_addDotted (h : addDotted key v path es = some es') : es.Proper → es'.Proper := by
  cases path with
  | nil => exact (addNew_eq_some h).2.2.2
  | cons step path => exact (under_addDotted h).proper

theorem procedureOf_addDotted_of_silent (hs : Silent path v)
    (h : addDotted key v path es = some es') :
    procedureOf es' = procedureOf es ∧ (es.Proper → es'.Proper) := by
  refine ⟨?_, proper_addDotted h⟩
  simp only [procedureOf, textAt?_addDotted_of_silent hs h]

theorem procedureOf_addDotted_text (h : addDotted key (.string text) [] es = some es') :
    procedureOf es' = (procedureOf es).set key text ∧ (es.Proper → es'.Proper) := by
  refine ⟨?_, proper_addDotted h⟩
  simp only [procedureOf, textAt?_addNew h, Procedure.set]
  by_cases hname : "name" = key
  · subst hname
    rfl
  · by_cases hmethod : "method" = key
    · subst hmethod
      rfl
    · simp [hname, hmethod, Ne.symm hname, Ne.symm hmethod]

theorem listAt_addDotted (hv : Untabled v) (h : addDotted key v path es = some es') :
    listAt "procedures" procedureOf es' = listAt "procedures" procedureOf es ∧
      (TidyGroup es → TidyGroup es') := by
  cases path with
  | nil => exact listAt_addNew h hv.1 hv.2
  | cons step path =>
    have hunder := under_addDotted h
    by_cases hstep : step = "procedures"
    · subst hstep
      exact (hunder.mono fun _ _ ⟨hpath, hsub⟩ =>
        procedureOf_addDotted_of_silent (.inl hpath) hsub).listAt_eq
    · exact hunder.listAt_of_ne procedureOf (Ne.symm hstep)

theorem groupOf_addDotted_of_silent (hv : Untabled v) (hs : Silent path v)
    (h : addDotted key v path es = some es') :
    groupOf es' = groupOf es ∧ (TidyGroup es → TidyGroup es') := by
  obtain ⟨hlist, htidy⟩ := listAt_addDotted hv h
  exact ⟨by rw [groupOf, groupOf, textAt?_addDotted_of_silent hs h, hlist], htidy⟩

theorem groupOf_addDotted_text (h : addDotted key (.string text) [] es = some es') :
    groupOf es' = (groupOf es).set key text ∧ (TidyGroup es → TidyGroup es') := by
  obtain ⟨hlist, htidy⟩ := listAt_addDotted (untabled_string text) h
  refine ⟨?_, htidy⟩
  simp only [groupOf, hlist, textAt?_addNew h, Group.set]
  by_cases hname : "name" = key
  · subst hname
    rfl
  · simp [hname, Ne.symm hname]

/-- A value outside of the groups names nothing. -/
theorem groupsOf_addDotted (hv : Untabled v) (h : addDotted key v path es = some es') :
    groupsOf es' = groupsOf es ∧ (TidyRoot es → TidyRoot es') := by
  cases path with
  | nil => exact listAt_addNew h hv.1 hv.2
  | cons step path =>
    have hunder := under_addDotted h
    by_cases hstep : step = "contexts"
    · subst hstep
      exact (hunder.mono fun _ _ ⟨hpath, hsub⟩ =>
        groupOf_addDotted_of_silent hv (.inl hpath) hsub).listAt_eq
    · exact hunder.listAt_of_ne groupOf (Ne.symm hstep)

/-- What changes under another key than the procedures changes nothing that names a group. -/
theorem groupOf_of_under {R : Entries → Entries → Prop} {step : String} (h : Under step R es es')
    (hne : "procedures" ≠ step) : groupOf es' = groupOf es ∧ (TidyGroup es → TidyGroup es') := by
  obtain ⟨hlist, htidy⟩ := h.listAt_of_ne (P := Proper) procedureOf hne
  exact ⟨by rw [groupOf, groupOf, h.textAt?, hlist], htidy⟩

/-- What changes in the last procedure of a group. -/
theorem groupOf_of_under_procedures {f : Procedure String → Procedure String}
    (h : Under "procedures" (fun sub sub' => procedureOf sub' = f (procedureOf sub) ∧
      (sub.Proper → sub'.Proper)) es es') :
    groupOf es' = (groupOf es).onLast f ∧ (TidyGroup es → TidyGroup es') := by
  obtain ⟨hlist, htidy⟩ := h.listAt
  exact ⟨by rw [groupOf, h.textAt?, hlist]; rfl, htidy⟩

/-- A table that is opened beside the procedures names nothing. -/
theorem groupOf_of_openTable (hname : key ≠ "name") (hprocedures : key ≠ "procedures")
    (h : changeAt openTable [key] es = some es') :
    groupOf es' = groupOf es ∧ (TidyGroup es → TidyGroup es') := by
  obtain ⟨v, -, rfl⟩ := Option.map_eq_some_iff.1 h
  have hsame : (es.set key v).get? "procedures" = es.get? "procedures" := by
    rw [get?_set, if_neg hprocedures]
  refine ⟨?_, Tidy.of_eq (fun hes => proper_set hes _ _) hsame⟩
  rw [groupOf, groupOf, listAt, listAt, hsame, textAt?, textAt?, get?_set, if_neg hname]

/-- A header of a procedure begins another one. -/
theorem groupOf_of_openElement (h : changeAt openElement ["procedures"] es = some es') :
    groupOf es' = (groupOf es).grow ∧ (TidyGroup es → TidyGroup es') := by
  obtain ⟨v, hv, rfl⟩ := Option.map_eq_some_iff.1 h
  obtain ⟨hlist, htidy⟩ := listAt_openElement procedureOf hv
    (show Proper [] from List.nodup_nil)
  refine ⟨?_, htidy⟩
  have hname : (es.set "procedures" v).textAt? "name" = es.textAt? "name" := by
    rw [textAt?, textAt?, get?_set, if_neg (by decide)]
  rw [groupOf, hlist, hname]
  rfl

end

/-! ### Reading and noting -/

/-- What is read so far names what is noted so far. -/
structure Follows (s : State) (c : Scan String) : Prop where
  header : s.1 = (c.header.map Header.path).getD []
  groups : groupsOf s.2 = c.groups
  tidy : TidyRoot s.2

section

variable {s s' : State} {c : Scan String} {key : String} {v : Value} {path : List String}

/-- A header opens what is noted of it. -/
theorem follows_turn {h : Header} {root : Entries} (hf : Follows s c)
    (hroot : changeAt h.change h.path s.2 = some root) : Follows (h.path, root) (c.turn h) := by
  have hbeside : ∀ {key : String}, key ≠ "name" → key ≠ "procedures" →
      changeAt openTable ["contexts", key] s.2 = some root →
      groupsOf root = groupsOf s.2 ∧ (TidyRoot s.2 → TidyRoot root) :=
    fun hname hprocedures h => ((under_changeAt h).mono fun _ _ hsub =>
      groupOf_of_openTable hname hprocedures hsub).listAt_eq
  cases h with
  | group =>
    obtain ⟨v, hv, rfl⟩ := Option.map_eq_some_iff.1 hroot
    obtain ⟨hlist, htidy⟩ := listAt_openElement groupOf hv
      (tidy_nil "procedures" Proper)
    refine ⟨rfl, ?_, htidy hf.tidy⟩
    rw [groupsOf, hlist, ← groupsOf, hf.groups]
    rfl
  | procedure =>
    obtain ⟨hlist, htidy⟩ := ((under_changeAt hroot).mono fun _ _ hsub =>
      groupOf_of_openElement hsub).listAt
    refine ⟨rfl, ?_, htidy hf.tidy⟩
    rw [groupsOf, hlist, ← groupsOf, hf.groups]
    rfl
  | database =>
    obtain ⟨hlist, htidy⟩ := hbeside (by decide) (by decide) hroot
    exact ⟨rfl, hlist.trans hf.groups, htidy hf.tidy⟩
  | output =>
    obtain ⟨hlist, htidy⟩ := hbeside (by decide) (by decide) hroot
    exact ⟨rfl, hlist.trans hf.groups, htidy hf.tidy⟩

/-- A value beside the groups and the procedures names nothing. -/
theorem groupsOf_beside {change : Entries → Option Entries} {root root' : Entries}
    (hkey : "procedures" ≠ key) (h : changeWithin change ["contexts", key] root = some root') :
    groupsOf root' = groupsOf root ∧ (TidyRoot root → TidyRoot root') :=
  ((under_changeWithin h).mono fun _ _ hsub =>
    groupOf_of_under (under_changeWithin hsub) hkey).listAt_eq

/-- A value that names nothing is not noted. -/
theorem follows_add_of_silent (hv : Untabled v) (hs : Silent path v) (hf : Follows s c)
    (h : add path key v s = some s') : Follows s' c := by
  obtain ⟨root, hroot, rfl⟩ := Option.map_eq_some_iff.1 h
  have hsame : groupsOf root = groupsOf s.2 ∧ (TidyRoot s.2 → TidyRoot root) := by
    rw [hf.header] at hroot
    match c.header, hroot with
    | none, hroot => exact groupsOf_addDotted hv hroot
    | some .group, hroot =>
      exact ((under_changeWithin hroot).mono fun _ _ hsub =>
        groupOf_addDotted_of_silent hv hs hsub).listAt_eq
    | some .database, hroot => exact groupsOf_beside (by decide) hroot
    | some .output, hroot => exact groupsOf_beside (by decide) hroot
    | some .procedure, hroot =>
      refine ((under_changeWithin hroot).mono fun _ _ hsub => ?_).listAt_eq
      obtain ⟨hlist, htidy⟩ := ((under_changeWithin hsub).mono fun _ _ hdeep =>
        procedureOf_addDotted_of_silent hs hdeep).listAt_eq
      exact ⟨by rw [groupOf, groupOf, (under_changeWithin hsub).textAt?, hlist], htidy⟩
  exact ⟨hf.header, hsame.1.trans hf.groups, hsame.2 hf.tidy⟩

/-- A text under a key of its own is noted. -/
theorem follows_add_text {text : String} (hf : Follows s c)
    (h : add [] key (.string text) s = some s') : Follows s' (c.place key text) := by
  obtain ⟨root, hroot, rfl⟩ := Option.map_eq_some_iff.1 h
  obtain ⟨hheader, hgroups, htidy⟩ := hf
  obtain ⟨header, groups⟩ := c
  dsimp only at hheader hgroups
  rw [hheader] at hroot
  match header, hheader, hroot with
  | none, hheader, hroot =>
    obtain ⟨hlist, hroot⟩ := groupsOf_addDotted (untabled_string text) hroot
    exact ⟨hheader, hlist.trans hgroups, hroot htidy⟩
  | some .group, hheader, hroot =>
    obtain ⟨hlist, hroot⟩ := ((under_changeWithin hroot).mono fun _ _ hsub =>
      groupOf_addDotted_text hsub).listAt
    exact ⟨hheader, by rw [groupsOf, hlist, ← groupsOf, hgroups]; rfl, hroot htidy⟩
  | some .database, hheader, hroot =>
    obtain ⟨hlist, hroot⟩ := groupsOf_beside (by decide) hroot
    exact ⟨hheader, hlist.trans hgroups, hroot htidy⟩
  | some .output, hheader, hroot =>
    obtain ⟨hlist, hroot⟩ := groupsOf_beside (by decide) hroot
    exact ⟨hheader, hlist.trans hgroups, hroot htidy⟩
  | some .procedure, hheader, hroot =>
    obtain ⟨hlist, hroot⟩ := ((under_changeWithin hroot).mono fun _ _ hsub =>
      groupOf_of_under_procedures ((under_changeWithin hsub).mono fun _ _ hdeep =>
        procedureOf_addDotted_text hdeep)).listAt
    exact ⟨hheader, by rw [groupsOf, hlist, ← groupsOf, hgroups]; rfl, hroot htidy⟩

/-- Reading a line and noting it agree. -/
theorem follows_step {line : Line} (hline : line.Formed) (hf : Follows s c)
    (h : step s line = some s') : Follows s' (c.note (fun _ value => value) line) := by
  obtain ⟨indent, content, trail, returns⟩ := line
  have hcontent := hline.content
  match content, h, hcontent with
  | .blank, h, _ =>
    obtain rfl := Option.some.inj h
    exact hf
  | .header header, h, _ =>
    obtain ⟨root, hroot, rfl⟩ := Option.map_eq_some_iff.1 h
    exact follows_turn hf hroot
  | .text [] key value, h, _ => exact follows_add_text hf h
  | .text (name :: path) key value, h, _ =>
    exact follows_add_of_silent (untabled_string value) (.inl (by simp)) hf h
  | .other path key spelling v, h, hcontent =>
    refine follows_add_of_silent (untabled_of_flat hcontent.2.2) (.inr fun text heq => ?_) hf h
    have hflat := hcontent.2.2
    rw [heq] at hflat
    exact hflat

/-- Reading lines and noting them agree. -/
theorem follows_run {lines : List Line} (hlines : ∀ line ∈ lines, line.Formed) (hf : Follows s c)
    (h : lines.foldlM step s = some s') :
    Follows s' (lines.foldl (Scan.note fun _ value => value) c) := by
  induction lines generalizing s c with
  | nil =>
    obtain rfl := Option.some.inj h
    exact hf
  | cons line rest ih =>
    obtain ⟨hline, hrest⟩ := List.forall_mem_cons.1 hlines
    obtain ⟨next, hnext, hlater⟩ := Option.bind_eq_some_iff.1 h
    exact ih hrest (follows_step hline hf hnext) hlater

end

/-! ### Settings and their values -/

theorem map_modifyLast {f : α → β} {m : α → α} {m' : β → β} (h : ∀ a, f (m a) = m' (f a))
    (as : List α) : (as.modifyLast m).map f = (as.map f).modifyLast m' := by
  rcases List.eq_nil_or_concat as with rfl | ⟨init, last, rfl⟩
  · rfl
  · simp [List.modifyLast_concat, h]

theorem map_set (f : α → β) (key : String) (a : α) (p : Procedure α) :
    (p.set key a).map f = (p.map f).set key (f a) := by
  unfold Procedure.set
  split
  · rfl
  · split <;> rfl

theorem Group.map_set (f : α → β) (key : String) (a : α) (g : Group α) :
    (g.set key a).map f = (g.map f).set key (f a) := by
  unfold Group.set
  split <;> rfl

namespace Scan

theorem map_turn (f : α → β) (h : Header) (c : Scan α) : (c.turn h).map f = (c.map f).turn h := by
  cases h with
  | group => simp [turn, map, Group.map]
  | procedure =>
    have hgrow : ∀ g : Group α, g.grow.map f = (g.map f).grow := by
      intro g
      simp [Group.grow, Group.map, Procedure.map]
    simp [turn, map, map_modifyLast hgrow]
  | database => rfl
  | output => rfl

theorem map_place (f : α → β) (key : String) (a : α) (c : Scan α) :
    (c.place key a).map f = (c.map f).place key (f a) := by
  obtain ⟨header, groups⟩ := c
  match header with
  | none => rfl
  | some .group => simp [place, map, map_modifyLast (Group.map_set f key a)]
  | some .procedure =>
    have hlast : ∀ g : Group α, (g.onLast (·.set key a)).map f =
        (g.map f).onLast (·.set key (f a)) := by
      intro g
      simp [Group.onLast, Group.map, map_modifyLast (Sheet.map_set f key a)]
    simp [place, map, map_modifyLast hlast]
  | some .database => rfl
  | some .output => rfl

theorem map_note (f : α → β) (mark : String → String → α) (c : Scan α) (line : Line) :
    (c.note mark line).map f = (c.map f).note (fun key value => f (mark key value)) line := by
  obtain ⟨indent, content, trail, returns⟩ := line
  match content with
  | .blank => rfl
  | .header h => exact map_turn f h c
  | .text [] key value => exact map_place f key (mark key value) c
  | .text (_ :: _) key value => rfl
  | .other .. => rfl

end Scan

theorem map_scan (offset : Nat) (c : Scan Setting) (lines : List Line) :
    (scan offset c lines).map Setting.value =
      lines.foldl (Scan.note fun _ value => value) (c.map Setting.value) := by
  induction lines generalizing offset c with
  | nil => rfl
  | cons line rest ih => rw [scan, ih, Scan.map_note, List.foldl_cons]

/-- The groups read from the text of a sheet are named by its settings. -/
theorem groupsOf_of_read? {lines : List Line} (h : ∀ line ∈ lines, line.Formed) {root : Entries}
    (hread : Toml.read? (String.ofList (text lines)) = some root) :
    groupsOf root = (groups lines).map (Group.map Setting.value) ∧ TidyRoot root := by
  rw [read?_text h] at hread
  obtain ⟨s, hs, rfl⟩ := Option.map_eq_some_iff.1 hread
  have hrun := follows_run (c := ⟨none, []⟩) h ⟨rfl, rfl, tidy_nil _ _⟩ hs
  have hscan : lines.foldl (Scan.note fun _ value => value) ⟨none, []⟩ =
      (scan 0 ⟨none, []⟩ lines).map Setting.value := (map_scan 0 ⟨none, []⟩ lines).symm
  rw [hscan] at hrun
  exact ⟨hrun.groups, hrun.tidy⟩

/-! ### Settings in the text -/

/-- A setting of a key is found in a text, before a bound. -/
structure Found (source : List Char) (bound : Nat) (key : String) (a : Setting) : Prop where
  key : a.key = key
  found : a.offset ∈ Locate.valueOffsets source a.key.toList a.value.toList
  lt : a.offset < bound

/-- Parts of a sheet stand in order if all settings of a part stand before those of a later one. -/
def Ascends (settings : α → List Setting) (parts : List α) : Prop :=
  parts.Pairwise fun x y => ∀ a ∈ settings x, ∀ b ∈ settings y, a.offset < b.offset

/-- The settings of a procedure. -/
def Procedure.settings (p : Procedure Setting) : List Setting := p.name.toList ++ p.method.toList

/-- The settings of a procedure are found. -/
structure Procedure.Marked (source : List Char) (bound : Nat) (p : Procedure Setting) : Prop where
  name : ∀ a ∈ p.name, Found source bound "name" a
  method : ∀ a ∈ p.method, Found source bound "method" a

/-- The settings of a group are found, those of its procedures in order. -/
structure Group.Marked (source : List Char) (bound : Nat) (g : Group Setting) : Prop where
  name : ∀ a ∈ g.name, Found source bound "name" a
  procedures : ∀ p ∈ g.procedures, p.Marked source bound
  ascends : Ascends Procedure.settings g.procedures

/-- The settings of groups are found, and their names in order. -/
structure Marked (source : List Char) (bound : Nat) (gs : List (Group Setting)) : Prop where
  groups : ∀ g ∈ gs, g.Marked source bound
  ascends : Ascends (fun g => g.name.toList) gs

section

variable {source : List Char} {bound bound' : Nat}

theorem Found.mono {key : String} {a : Setting} (h : Found source bound key a)
    (hle : bound ≤ bound') : Found source bound' key a :=
  ⟨h.key, h.found, h.lt.trans_le hle⟩

theorem Procedure.Marked.mono {p : Procedure Setting} (h : p.Marked source bound)
    (hle : bound ≤ bound') : p.Marked source bound' :=
  ⟨fun a ha => (h.name a ha).mono hle, fun a ha => (h.method a ha).mono hle⟩

theorem Group.Marked.mono {g : Group Setting} (h : g.Marked source bound) (hle : bound ≤ bound') :
    g.Marked source bound' :=
  ⟨fun a ha => (h.name a ha).mono hle, fun p hp => (h.procedures p hp).mono hle, h.ascends⟩

theorem Marked.mono {gs : List (Group Setting)} (h : Marked source bound gs)
    (hle : bound ≤ bound') : Marked source bound' gs :=
  ⟨fun g hg => (h.groups g hg).mono hle, h.ascends⟩

theorem Procedure.Marked.lt {p : Procedure Setting} (h : p.Marked source bound) :
    ∀ a ∈ p.settings, a.offset < bound := by
  intro a ha
  rcases List.mem_append.1 ha with ha | ha
  · exact (h.name a (Option.mem_toList.1 ha)).lt
  · exact (h.method a (Option.mem_toList.1 ha)).lt

theorem forall_modifyLast {P Q : α → Prop} {m : α → α} {as : List α} (h : ∀ a ∈ as, P a)
    (hkept : ∀ a, P a → Q a) (hlast : ∀ a, P a → Q (m a)) : ∀ a ∈ as.modifyLast m, Q a := by
  rcases List.eq_nil_or_concat as with rfl | ⟨init, last, rfl⟩
  · simp [List.modifyLast, List.modifyLast.go]
  · rw [List.concat_eq_append, List.forall_mem_append, List.forall_mem_singleton] at h
    rw [List.concat_eq_append, List.modifyLast_concat, List.forall_mem_append,
      List.forall_mem_singleton]
    exact ⟨fun a ha => hkept a (h.1 a ha), hlast last h.2⟩

theorem ascends_append {settings : α → List Setting} {parts : List α} (h : Ascends settings parts)
    {part : α} (hpart : settings part = []) : Ascends settings (parts ++ [part]) := by
  refine List.pairwise_append.2 ⟨h, List.pairwise_singleton _ _, ?_⟩
  intro x _ y hy a _ b hb
  rw [List.mem_singleton.1 hy, hpart] at hb
  cases hb

/-- Parts stay in order if nothing is set in the last one but what stands after all of them. -/
theorem ascends_modifyLast {settings : α → List Setting} {m : α → α} {parts : List α}
    (h : Ascends settings parts) (hlt : ∀ x ∈ parts, ∀ a ∈ settings x, a.offset < bound)
    (hm : ∀ x, ∀ b ∈ settings (m x), b ∈ settings x ∨ bound ≤ b.offset) :
    Ascends settings (parts.modifyLast m) := by
  rcases List.eq_nil_or_concat parts with rfl | ⟨init, last, rfl⟩
  · exact List.Pairwise.nil
  · rw [List.concat_eq_append] at h hlt
    rw [List.concat_eq_append, List.modifyLast_concat]
    obtain ⟨hinit, -, hcross⟩ := List.pairwise_append.1 h
    refine List.pairwise_append.2 ⟨hinit, List.pairwise_singleton _ _, ?_⟩
    intro x hx y hy a ha b hb
    rw [List.mem_singleton.1 hy] at hb
    rcases hm last b hb with hkept | hnew
    · exact hcross x hx last (List.mem_singleton_self _) a ha b hkept
    · exact (hlt x (List.mem_append_left _ hx) a ha).trans_le hnew

/-- A setting that stands after all others may be noted. -/
structure Fresh (source : List Char) (bound bound' : Nat) (key : String) (a : Setting) : Prop where
  ge : bound ≤ a.offset
  found : key = "name" ∨ key = "method" → Found source bound' key a
  le : bound ≤ bound'

variable {key : String} {a : Setting}

theorem Procedure.Marked.set {p : Procedure Setting} (h : p.Marked source bound)
    (ha : Fresh source bound bound' key a) : (p.set key a).Marked source bound' := by
  have hmono := h.mono ha.le
  unfold Procedure.set
  split
  next hkey =>
    subst hkey
    refine ⟨fun b hb => ?_, hmono.method⟩
    obtain rfl := Option.some.inj hb
    exact ha.found (.inl rfl)
  next =>
    split
    next hkey =>
      subst hkey
      refine ⟨hmono.name, fun b hb => ?_⟩
      obtain rfl := Option.some.inj hb
      exact ha.found (.inr rfl)
    next => exact hmono

theorem mem_settings_set {p : Procedure Setting} {b : Setting}
    (hb : b ∈ (p.set key a).settings) : b ∈ p.settings ∨ b = a := by
  unfold Procedure.set at hb
  split at hb
  · simp only [Procedure.settings, List.mem_append, Option.mem_toList] at hb ⊢
    rcases hb with hb | hb
    · exact .inr (Option.some.inj hb).symm
    · exact .inl (.inr hb)
  · split at hb
    · simp only [Procedure.settings, List.mem_append, Option.mem_toList] at hb ⊢
      rcases hb with hb | hb
      · exact .inl (.inl hb)
      · exact .inr (Option.some.inj hb).symm
    · exact .inl hb

theorem Group.Marked.set {g : Group Setting} (h : g.Marked source bound)
    (ha : Fresh source bound bound' key a) : (g.set key a).Marked source bound' := by
  have hmono := h.mono ha.le
  unfold Group.set
  split
  next hkey =>
    subst hkey
    refine ⟨fun b hb => ?_, hmono.procedures, hmono.ascends⟩
    obtain rfl := Option.some.inj hb
    exact ha.found (.inl rfl)
  next => exact hmono

theorem Group.Marked.onLast {g : Group Setting} (h : g.Marked source bound)
    (ha : Fresh source bound bound' key a) :
    (g.onLast (·.set key a)).Marked source bound' := by
  refine ⟨(h.mono ha.le).name, forall_modifyLast h.procedures (fun p hp => hp.mono ha.le)
    (fun p hp => hp.set ha), ascends_modifyLast h.ascends (fun p hp => (h.procedures p hp).lt) ?_⟩
  intro p b hb
  rcases mem_settings_set hb with hkept | rfl
  · exact .inl hkept
  · exact .inr ha.ge

theorem Group.Marked.grow {g : Group Setting} (h : g.Marked source bound) :
    g.grow.Marked source bound := by
  refine ⟨h.name, ?_, ascends_append h.ascends rfl⟩
  refine List.forall_mem_append.2 ⟨h.procedures, List.forall_mem_singleton.2 ⟨?_, ?_⟩⟩
  · simp
  · simp

theorem Marked.turn {c : Scan Setting} (h : Marked source bound c.groups) (header : Header) :
    Marked source bound (c.turn header).groups := by
  cases header with
  | group =>
    refine ⟨List.forall_mem_append.2 ⟨h.groups, List.forall_mem_singleton.2 ⟨?_, ?_, ?_⟩⟩,
      ascends_append h.ascends rfl⟩
    · simp
    · simp
    · exact List.Pairwise.nil
  | procedure =>
    refine ⟨forall_modifyLast h.groups (fun g hg => hg) fun g hg => hg.grow, ?_⟩
    exact ascends_modifyLast h.ascends
      (fun g hg a ha => ((h.groups g hg).name a (Option.mem_toList.1 ha)).lt) fun g b hb => .inl hb
  | database => exact h
  | output => exact h

theorem Marked.place {c : Scan Setting} (h : Marked source bound c.groups)
    (ha : Fresh source bound bound' key a) : Marked source bound' (c.place key a).groups := by
  have hlt : ∀ g ∈ c.groups, ∀ b ∈ g.name.toList, b.offset < bound :=
    fun g hg b hb => ((h.groups g hg).name b (Option.mem_toList.1 hb)).lt
  obtain ⟨header, groups⟩ := c
  match header with
  | none => exact h.mono ha.le
  | some .group =>
    refine ⟨forall_modifyLast h.groups (fun g hg => hg.mono ha.le) fun g hg => hg.set ha,
      ascends_modifyLast h.ascends hlt fun g b hb => ?_⟩
    unfold Group.set at hb
    split at hb
    · obtain rfl := Option.some.inj (Option.mem_toList.1 hb)
      exact .inr ha.ge
    · exact .inl hb
  | some .procedure =>
    exact ⟨forall_modifyLast h.groups (fun g hg => hg.mono ha.le) fun g hg => hg.onLast ha,
      ascends_modifyLast h.ascends hlt fun g b hb => .inl hb⟩
  | some .database => exact h.mono ha.le
  | some .output => exact h.mono ha.le

/-- A line with a text under a key of its own gives a setting that stands after all others. -/
theorem fresh_of_line {before rest : List Char} {line : Line} {key value : String}
    (hline : line.Formed) (hcontent : line.content = .text [] key value)
    (hbefore : before = [] ∨ before.getLast? = some '\n')
    (hsource : source = before ++ line.chars ++ rest) (hbound : Text.byteLength before = bound) :
    Fresh source bound (bound + Text.byteLength line.chars) key
      ⟨key, value, bound + Text.byteLength (line.indent ++ lead [] key)⟩ := by
  have hlead : lead [] key = key.toList ++ " = \"".toList := by
    rw [lead, List.nil_append, dotted_singleton]
  have hplain := hline.content
  rw [hcontent] at hplain
  have hchars : line.chars =
      line.indent ++ (lead [] key ++ value.toList ++ ['"']) ++ line.trail := by
    rw [Line.chars, hcontent, Content.chars]
  refine ⟨Nat.le_add_right _ _, fun hkey => ⟨rfl, ?_, ?_⟩, Nat.le_add_right _ _⟩
  · have hword : ∀ c ∈ key.toList, Text.isWordChar c = true := by
      rcases hkey with rfl | rfl <;> exact List.all_eq_true.1 (by decide)
    have hne : key.toList ≠ [] := by
      rcases hkey with rfl | rfl <;> decide
    have hblanks : ∀ c ∈ line.indent, c = ' ' ∨ c = '\t' := by
      intro c hc
      simpa [isSpace] using hline.indent c hc
    have hvalue : '\n' ∉ value.toList := fun hmem => absurd (hplain.2 _ hmem).1 (by decide)
    have hstands : before ++ line.indent ++ (lead [] key ++ value.toList ++ ['"']) <+: source := by
      refine ⟨line.trail ++ rest, ?_⟩
      simp [hsource, hchars]
    have hmem := Locate.mem_of_line (f := (lead [] key, '"')) (by simp [Locate.frames, hlead])
      hstands hbefore hblanks hword hne hvalue
    rwa [List.append_assoc, Text.byteLength_append, hbound] at hmem
  · have hpos : 0 < Text.byteLength ['"'] := by decide
    rw [hchars]
    simp only [Text.byteLength_append]
    omega

theorem Marked.note {before rest : List Char} {line : Line} {c : Scan Setting}
    (h : Marked source bound c.groups) (hline : line.Formed)
    (hbefore : before = [] ∨ before.getLast? = some '\n')
    (hsource : source = before ++ line.chars ++ rest) (hbound : Text.byteLength before = bound) :
    Marked source (bound + Text.byteLength line.chars) (c.note (fun key value =>
      ⟨key, value, bound + Text.byteLength (line.indent ++ lead [] key)⟩) line).groups := by
  have hle : bound ≤ bound + Text.byteLength line.chars := Nat.le_add_right _ _
  unfold Scan.note
  split
  next header _ => exact (h.turn header).mono hle
  next key value hcontent =>
    exact h.place (fresh_of_line hline hcontent hbefore hsource hbound)
  next => exact h.mono hle

/-- The settings noted of lines are found in the text, in order. -/
theorem marked_scan (before : List Char) {lines : List Line} {c : Scan Setting}
    (h : Marked source bound c.groups) (hlines : ∀ line ∈ lines, line.Formed)
    (hbefore : lines ≠ [] → before = [] ∨ before.getLast? = some '\n')
    (hsource : source = before ++ text lines) (hbound : Text.byteLength before = bound) :
    ∃ bound', Marked source bound' (scan bound c lines).groups := by
  induction lines generalizing before bound c with
  | nil => exact ⟨bound, h⟩
  | cons line rest ih =>
    obtain ⟨hline, hrest⟩ := List.forall_mem_cons.1 hlines
    have hsplit : source = before ++ line.chars ++ (line.close rest ++ text rest) := by
      simp [hsource, text_cons]
    have hle : bound + Text.byteLength line.chars ≤
        bound + Text.byteLength (line.chars ++ line.close rest) := by
      rw [Text.byteLength_append]
      omega
    have hnote := (h.note hline (hbefore (by simp)) hsplit hbound).mono hle
    refine ih (before ++ (line.chars ++ line.close rest)) hnote hrest ?_ ?_ ?_
    · intro hne
      have hclose : line.close rest = line.newline := by
        rw [Line.close, if_neg (by simpa using hne)]
      right
      rw [hclose, Line.newline, ← List.append_assoc]
      split
      · rw [List.getLast?_append_of_ne_nil _ (by simp)]
        rfl
      · rw [List.getLast?_concat]
    · simp [hsplit]
    · rw [Text.byteLength_append, hbound]

/-- The settings of a sheet are found in its text, in order. -/
theorem marked_groups {lines : List Line} (h : ∀ line ∈ lines, line.Formed) :
    ∃ bound, Marked (text lines) bound (groups lines) := by
  refine marked_scan [] ⟨?_, List.Pairwise.nil⟩ h (fun _ => .inl rfl) rfl rfl
  simp

end

end Sprocket.Sheet
