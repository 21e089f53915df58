import Sprocket.Proofs.Clashes
import Sprocket.Proofs.Decoding

/-!
# The labels of problems

A label is put on a setting that is found in the text by its key and its value. So it lies on the
declaration at fault as long as no other setting further up reads the same; where one does, the
search stops there. A second label, or the label of a repeated group, counts one setting further up:
that of the earlier declaration, and no more.

* `Setting.Earlier`: a setting that reads the same, further up;
* `Points`, `PointsAgain`: labels that lie on a setting exactly if there is no such one but the one
  that counts;
* `Labelled`: the labels of a problem, on the settings of the declarations at fault;
* `labelled_of_readCause`: every problem with the text of a sheet is labelled like that.
-/

namespace Sprocket.Sheet

open Toml Identifier

/-! ### Labels -/

/-- The span of the value of a setting. -/
def Setting.span (a : Setting) : Span := ⟨a.offset, Text.byteLength a.value.toList⟩

/-- A setting of the same key to the same value has its value at an offset further up. -/
def Setting.Earlier (source : List Char) (a : Setting) (offset : Nat) : Prop :=
  Locate.Hit source a.key.toList a.value.toList offset ∧ offset < a.offset

/-- The setting that gives the method of a procedure: that of the method, or else of the name. -/
def Procedure.own (p : Procedure Setting) : Option Setting := p.method.or p.name

/-- The settings that give the methods of a group, in order. -/
def Group.methods (g : Group Setting) : List Setting := g.procedures.filterMap Procedure.own

/-- The settings that name groups, in order. -/
def names (gs : List (Group Setting)) : List Setting := gs.filterMap (·.name)

/-- The group of a name. -/
def named? (gs : List (Group Setting)) (name : String) : Option (Group Setting) :=
  gs.find? fun g => g.name.map (·.value) == some name

/-- A label that is found, and lies on a setting if nothing further up reads the same; for a value
without an equals sign, only if nothing does. -/
structure Points (source : List Char) (a : Setting) (span : Option Span) : Prop where
  found : span.isSome = true
  own : (∀ offset, ¬ a.Earlier source offset) → span = some a.span
  only : '=' ∉ a.value.toList → span = some a.span → ∀ offset, ¬ a.Earlier source offset

/-- A label that is found, and lies on a setting exactly if nothing further up reads the same but an
earlier one. -/
structure PointsAgain (source : List Char) (a b : Setting) (span : Option Span) : Prop where
  found : span.isSome = true
  own_iff : span = some b.span ↔
    ∀ offset, b.Earlier source offset → offset = a.offset ∧ a.key = b.key

/-- The label of a name that may not stand where it does: of a group, of a method that is spelled
out, or of a namespace. -/
def LabelledName (source : List Char) (gs : List (Group Setting)) (name place : String)
    (span : Option Span) : Prop :=
  (place = "context" ∧ ∃ a, IsFirst Setting.value (names gs) name a ∧ Points source a span) ∨
  (∃ context g a, place = "method in '" ++ context ++ "'" ∧ named? gs context = some g ∧
    IsFirst Setting.value g.methods name a ∧ a.key = "method" ∧ Points source a span) ∨
  ∃ context, place = "namespace in '" ++ context ++ "'"

/-- The label of a name that may not stand for a method. -/
def LabelledDefault (source : List Char) (gs : List (Group Setting)) (procedure : String)
    (span : Option Span) : Prop :=
  ∃ g ∈ gs, ∃ a, IsFirst Setting.value g.methods procedure a ∧ a.key = "name" ∧
    Points source a span

/-- The labels of a problem with the names of groups and methods. -/
def Labelled (source : List Char) (gs : List (Group Setting)) : ProblemCause → Prop
  | .duplicateMethod method context first second =>
    ∃ g a b, named? gs context = some g ∧ AreFirstTwo Setting.value g.methods method a b ∧
      a.offset < b.offset ∧ Points source a first ∧ PointsAgain source a b second ∧
      (a.key = b.key → ∀ x ∈ first, ∀ y ∈ second, x.offset < y.offset)
  | .invalid (.repeatedContext context) span =>
    ∃ a b, AreFirstTwo Setting.value (names gs) context a b ∧ a.offset < b.offset ∧
      PointsAgain source a b span
  | .invalid (.keywordAsMethod procedure) span => LabelledDefault source gs procedure span
  | .invalid (.formAsMethod procedure _) span => LabelledDefault source gs procedure span
  | .reservedKeyword name place span => LabelledName source gs name place span
  | .invalidIdentifier name place _ span => LabelledName source gs name place span
  | _ => True

/-! ### Settings that are found -/

/-- A setting of a word is found where it stands. -/
structure Stands (source : List Char) (a : Setting) : Prop where
  key : ∀ c ∈ a.key.toList, Text.isWordChar c = true
  found : a.offset ∈ Locate.valueOffsets source a.key.toList a.value.toList

theorem stands_of_found {source : List Char} {bound : Nat} {key : String} {a : Setting}
    (hkey : key = "name" ∨ key = "method") (h : Found source bound key a) : Stands source a := by
  refine ⟨?_, h.found⟩
  rw [h.key]
  rcases hkey with rfl | rfl <;> exact List.all_eq_true.1 (by decide)

section

variable {source : String} {a b : Setting}

/-- The first setting that is found lies on a setting that stands. -/
theorem points_of_stands (h : Stands source.toList a) :
    Points source.toList a (Locate.valueSpan? source a.key a.value 0) := by
  obtain ⟨x, hx, hleast⟩ := Locate.exists_valueSpan_zero h.found
  refine ⟨by rw [hx]; rfl, fun hnone => ?_, fun hvalue hspan offset hearlier => ?_⟩
  · have hxa : x = a.offset := hleast.2 fun o ho =>
      Nat.le_of_not_lt fun hlt => hnone o ⟨Locate.hit_of_mem ho, hlt⟩
    rw [hx, hxa, Setting.span]
  · rw [hx, Setting.span, Option.some.injEq, Span.mk.injEq] at hspan
    have hmem := Locate.mem_of_hit h.key hvalue hearlier.1
    exact absurd hearlier.2 (Nat.not_lt_of_le (hleast.1 hspan.1 offset hmem))

/-- The setting that is found after that of an earlier declaration, if that has the same key, lies
on a setting that stands. -/
theorem pointsAgain_of_stands (ha : Stands source.toList a) (hb : Stands source.toList b)
    (hvalue : a.value = b.value) (hlt : a.offset < b.offset) (hequals : '=' ∉ b.value.toList) :
    PointsAgain source.toList a b
      (Locate.valueSpan? source b.key b.value (if a.key = b.key then 1 else 0)) := by
  have hearlier : ∀ offset, b.Earlier source.toList offset ↔
      offset ∈ Locate.valueOffsets source.toList b.key.toList b.value.toList ∧
        offset < b.offset := by
    intro offset
    rw [Setting.Earlier, Locate.mem_iff_hit hb.key hequals]
  by_cases hkey : a.key = b.key
  · have hfound := ha.found
    rw [hkey, hvalue] at hfound
    obtain ⟨x, hx, hsecond⟩ := Locate.exists_valueSpan_one hfound hb.found hlt
    rw [if_pos hkey, hx]
    refine ⟨rfl, ?_⟩
    simp only [Setting.span, Option.some.injEq, Span.mk.injEq, and_true, hsecond, hearlier, hkey]
    exact ⟨fun h o ho => h o ho.1 ho.2, fun h o ho hlt => h o ⟨ho, hlt⟩⟩
  · obtain ⟨x, hx, hleast⟩ := Locate.exists_valueSpan_zero hb.found
    rw [if_neg hkey, hx]
    refine ⟨rfl, ?_⟩
    simp only [Setting.span, Option.some.injEq, Span.mk.injEq, and_true, hleast, hearlier, hkey,
      and_false, imp_false, not_and, Nat.not_lt]

end

/-! ### Settings and declarations -/

/-- The settings of a sheet name the groups of a manifest, and stand in its text in order. -/
structure Agrees (source : List Char) (gs : List (Group Setting)) (contexts : List ContextConfig) :
    Prop where
  named : gs.map (Group.map Setting.value) = contexts.map Decode.names
  marked : ∃ bound, Marked source bound gs

/-- The names of groups are those of the settings. -/
theorem map_value_names {gs : List (Group Setting)} {contexts : List ContextConfig}
    (h : gs.map (Group.map Setting.value) = contexts.map Decode.names) :
    (names gs).map Setting.value = contexts.map (·.name) := by
  induction gs generalizing contexts with
  | nil =>
    obtain rfl := List.map_eq_nil_iff.1 h.symm
    rfl
  | cons g gs ih =>
    obtain ⟨config, rest, rfl, hconfig, hrest⟩ := List.map_eq_cons_iff.1 h.symm
    have hname : g.name.map Setting.value = some config.name :=
      (congrArg Group.name hconfig).symm
    obtain ⟨a, ha, hvalue⟩ := Option.map_eq_some_iff.1 hname
    rw [names, List.filterMap_cons_some ha, List.map_cons, List.map_cons, hvalue, ← names,
      ih hrest.symm]

/-- The methods of a group are those of the settings, under the same keys. -/
theorem map_methods {source : List Char} {bound : Nat} {ps : List (Procedure Setting)}
    (hmarked : ∀ p ∈ ps, p.Marked source bound) {ds : List Declaration}
    (h : ps.map (Procedure.map Setting.value) = ds.map fun d => ⟨some d.name, d.method⟩) :
    (ps.filterMap Procedure.own).map (fun a => (a.key, a.value)) =
      ds.map fun d => (d.methodKey, d.methodName) := by
  induction ps generalizing ds with
  | nil =>
    obtain rfl := List.map_eq_nil_iff.1 h.symm
    rfl
  | cons p ps ih =>
    obtain ⟨d, rest, rfl, hd, hrest⟩ := List.map_eq_cons_iff.1 h.symm
    obtain ⟨hp, hps⟩ := List.forall_mem_cons.1 hmarked
    have hname : p.name.map Setting.value = some d.name := (congrArg Procedure.name hd).symm
    have hmethod : p.method.map Setting.value = d.method := (congrArg Procedure.method hd).symm
    obtain ⟨a, ha, hvalue⟩ := Option.map_eq_some_iff.1 hname
    have hown : ∃ b, p.own = some b ∧ (b.key, b.value) = (d.methodKey, d.methodName) := by
      rw [Procedure.own, Declaration.methodKey, Declaration.methodName, ← hmethod]
      cases hcase : p.method with
      | none => exact ⟨a, ha, by simp [(hp.name a ha).key, hvalue]⟩
      | some b => exact ⟨b, rfl, by simp [(hp.method b hcase).key]⟩
    obtain ⟨b, hb, hkey⟩ := hown
    rw [List.filterMap_cons_some hb, List.map_cons, List.map_cons, hkey, ih hps hrest.symm]

/-- The group of a name in a manifest is that of the settings. -/
theorem exists_named {gs : List (Group Setting)} {contexts : List ContextConfig}
    (h : gs.map (Group.map Setting.value) = contexts.map Decode.names) {context : String}
    {config : ContextConfig} (hfind : contexts.find? (·.name == context) = some config) :
    ∃ g ∈ gs, named? gs context = some g ∧ g.map Setting.value = Decode.names config := by
  induction gs generalizing contexts with
  | nil =>
    obtain rfl := List.map_eq_nil_iff.1 h.symm
    cases hfind
  | cons g gs ih =>
    obtain ⟨c, rest, rfl, hc, hrest⟩ := List.map_eq_cons_iff.1 h.symm
    have hname : g.name.map Setting.value = some c.name := (congrArg Group.name hc).symm
    rw [List.find?_cons] at hfind
    rw [named?, List.find?_cons, hname]
    cases hcase : c.name == context with
    | true =>
      rw [hcase] at hfind
      obtain rfl := Option.some.inj hfind
      exact ⟨g, List.mem_cons_self, by simp [eq_of_beq hcase], hc.symm⟩
    | false =>
      rw [hcase] at hfind
      obtain ⟨g', hg', hnamed, hvalue⟩ := ih hrest.symm hfind
      refine ⟨g', List.mem_cons_of_mem _ hg', ?_, hvalue⟩
      rw [← hnamed, named?]
      simp [hcase]

theorem lt_of_areFirstTwo {settings : List Setting} {value : String} {a b : Setting}
    (h : settings.Pairwise fun a b => a.offset < b.offset)
    (htwo : AreFirstTwo Setting.value settings value a b) : a.offset < b.offset := by
  obtain ⟨before, between, after, rfl, -⟩ := htwo
  have htail := (List.pairwise_append.1 h).2.1
  exact (List.pairwise_cons.1 htail).1 b (by simp)

section

variable {source : List Char} {bound : Nat} {gs : List (Group Setting)} {g : Group Setting}

theorem pairwise_names (h : Marked source bound gs) :
    (names gs).Pairwise fun a b => a.offset < b.offset := by
  refine List.pairwise_filterMap.2 (h.ascends.imp fun hlt a ha b hb => ?_)
  exact hlt a (Option.mem_toList.2 ha) b (Option.mem_toList.2 hb)

theorem pairwise_methods (h : g.Marked source bound) :
    g.methods.Pairwise fun a b => a.offset < b.offset := by
  have hmem : ∀ {p : Procedure Setting} {a : Setting}, p.own = some a → a ∈ p.settings := by
    intro p a ha
    rw [Procedure.settings, List.mem_append, Option.mem_toList, Option.mem_toList]
    rcases Option.or_eq_some_iff.1 ha with hmethod | ⟨-, hname⟩
    · exact .inr hmethod
    · exact .inl hname
  refine List.pairwise_filterMap.2 (h.ascends.imp fun hlt a ha b hb => ?_)
  exact hlt a (hmem ha) b (hmem hb)

theorem found_of_mem_names (h : Marked source bound gs) {a : Setting} (ha : a ∈ names gs) :
    a.key = "name" ∧ Stands source a := by
  obtain ⟨g, hg, hname⟩ := List.mem_filterMap.1 ha
  have hfound := (h.groups g hg).name a hname
  exact ⟨hfound.key, stands_of_found (.inl rfl) hfound⟩

theorem stands_of_mem_methods (h : g.Marked source bound) {a : Setting} (ha : a ∈ g.methods) :
    Stands source a := by
  obtain ⟨p, hp, hown⟩ := List.mem_filterMap.1 ha
  rcases Option.or_eq_some_iff.1 hown with hmethod | ⟨-, hname⟩
  · exact stands_of_found (.inr rfl) ((h.procedures p hp).method a hmethod)
  · exact stands_of_found (.inl rfl) ((h.procedures p hp).name a hname)

end

/-- A usable name holds no equals sign. -/
theorem not_mem_of_usable {name : String} (h : Usable name) : '=' ∉ name.toList := by
  obtain ⟨⟨c, r, hname, hstart, hpart⟩, -⟩ := h
  have hnot : ¬ IsPart '=' := by
    rw [← isPart_iff]
    decide
  rw [hname, List.mem_cons, not_or]
  refine ⟨?_, fun hmem => hnot (hpart _ hmem)⟩
  rintro rfl
  exact hnot (.inl hstart)

/-! ### Problems -/

section

variable {source : String} {gs : List (Group Setting)} {contexts : List ContextConfig}
  {config : ContextConfig} {cause : ProblemCause}

/-- The name of a group is reported where it stands. -/
theorem exists_names (h : Agrees source.toList gs contexts) {name : String}
    (hfirst : IsFirst (·.name) contexts name config) :
    ∃ a, IsFirst Setting.value (names gs) name a ∧
      Points source.toList a (Locate.valueSpan? source "name" name 0) := by
  obtain ⟨bound, hmarked⟩ := h.marked
  obtain ⟨a, ha⟩ : ∃ a, IsFirst Setting.value (names gs) name a := by
    obtain ⟨a, -, ha⟩ := hfirst.of_map_eq (h := id) (fun _ => rfl) (fun _ => rfl)
      (map_value_names h.named).symm
    exact ⟨a, ha⟩
  obtain ⟨hkey, hstands⟩ := found_of_mem_names hmarked ha.mem.1
  have hpoints := points_of_stands hstands
  rw [hkey, ha.mem.2] at hpoints
  exact ⟨a, ha, hpoints⟩

/-- The name of a group that is given twice is reported where it stands again. -/
theorem exists_names_twice (h : Agrees source.toList gs contexts) {name : String}
    {c : ContextConfig} (husable : Usable name)
    (htwo : AreFirstTwo (·.name) contexts name c config) :
    ∃ a b, AreFirstTwo Setting.value (names gs) name a b ∧ a.offset < b.offset ∧
      PointsAgain source.toList a b (Locate.valueSpan? source "name" name 1) := by
  obtain ⟨bound, hmarked⟩ := h.marked
  obtain ⟨a, b, hab⟩ : ∃ a b, AreFirstTwo Setting.value (names gs) name a b := by
    obtain ⟨a, b, -, -, hab⟩ := htwo.of_map_eq (h := id) (fun _ => rfl) (fun _ => rfl)
      (map_value_names h.named).symm
    exact ⟨a, b, hab⟩
  obtain ⟨⟨ha, hvalue⟩, hb, hvalue'⟩ := hab.mem
  obtain ⟨hkey, hstands⟩ := found_of_mem_names hmarked ha
  obtain ⟨hkey', hstands'⟩ := found_of_mem_names hmarked hb
  have hlt := lt_of_areFirstTwo (pairwise_names hmarked) hab
  have hpoints := pointsAgain_of_stands hstands hstands' (hvalue.trans hvalue'.symm) hlt
    (hvalue' ▸ not_mem_of_usable husable)
  rw [hkey, hkey', if_pos rfl, hvalue'] at hpoints
  exact ⟨a, b, hab, hlt, hpoints⟩

/-- A method is reported where it stands. -/
theorem exists_methods {g : Group Setting} {bound : Nat} (hg : g.Marked source.toList bound)
    (hnames : g.map Setting.value = Decode.names config) {method : String} {d : Declaration}
    (hfirst : IsFirst (·.methodName) config.procedures method d) :
    ∃ a, IsFirst Setting.value g.methods method a ∧ a.key = d.methodKey ∧
      Points source.toList a (Locate.valueSpan? source d.methodKey method 0) := by
  have hmap := map_methods hg.procedures (congrArg Group.procedures hnames)
  obtain ⟨a, hkey, ha⟩ : ∃ a : Setting, a.key = d.methodKey ∧
      IsFirst Setting.value g.methods method a := by
    obtain ⟨a, hkey, ha⟩ := hfirst.of_map_eq (h := Prod.snd) (fun _ => rfl) (fun _ => rfl) hmap.symm
    exact ⟨a, (Prod.mk.inj hkey).1.symm, ha⟩
  have hpoints := points_of_stands (stands_of_mem_methods hg ha.mem.1)
  rw [hkey, ha.mem.2] at hpoints
  exact ⟨a, ha, hkey, hpoints⟩

/-- A method that is given twice is reported where it stands first, and where it stands again. -/
theorem exists_methods_twice {s : Scope} (hs : s.source = source) {g : Group Setting} {bound : Nat}
    (hg : g.Marked source.toList bound) (hnames : g.map Setting.value = Decode.names config)
    {method : String} (husable : Usable method) {d e : Declaration}
    (htwo : AreFirstTwo (·.methodName) config.procedures method d e) :
    ∃ a b, AreFirstTwo Setting.value g.methods method a b ∧ a.offset < b.offset ∧
      Points source.toList a (s.methodSpan? config method 0) ∧
      PointsAgain source.toList a b (s.methodSpan? config method 1) ∧
      (a.key = b.key → ∀ x ∈ s.methodSpan? config method 0, ∀ y ∈ s.methodSpan? config method 1,
        x.offset < y.offset) := by
  have hmap := map_methods hg.procedures (congrArg Group.procedures hnames)
  obtain ⟨a, b, hkey, hkey', hab⟩ : ∃ a b : Setting, a.key = d.methodKey ∧ b.key = e.methodKey ∧
      AreFirstTwo Setting.value g.methods method a b := by
    obtain ⟨a, b, hkey, hkey', hab⟩ := htwo.of_map_eq (h := Prod.snd) (fun _ => rfl) (fun _ => rfl)
      hmap.symm
    exact ⟨a, b, (Prod.mk.inj hkey).1.symm, (Prod.mk.inj hkey').1.symm, hab⟩
  obtain ⟨⟨ha, hvalue⟩, hb, hvalue'⟩ := hab.mem
  obtain ⟨hfirst, hsecond⟩ := s.methodSpan?_of_areFirstTwo htwo
  have hlt := lt_of_areFirstTwo (pairwise_methods hg) hab
  have hstands := stands_of_mem_methods hg ha
  have hpoints := points_of_stands hstands
  have hpoints' := pointsAgain_of_stands hstands (stands_of_mem_methods hg hb)
    (hvalue.trans hvalue'.symm) hlt (hvalue' ▸ not_mem_of_usable husable)
  rw [hkey, hvalue] at hpoints
  rw [hkey, hkey', hvalue'] at hpoints'
  rw [hfirst, hsecond, Scope.find?, Scope.find?, hs]
  refine ⟨a, b, hab, hlt, hpoints, hpoints', fun hsame x hx y hy => ?_⟩
  rw [hkey, hkey'] at hsame
  rw [hsame] at hx
  rw [if_pos hsame] at hy
  exact Locate.valueSpan_lt hx hy

/-- The labels of a name that may not stand where it does. -/
theorem labelledName_of_checkName {s : Scope} {name key kind : String} (place : String)
    (hplace : s.place kind = place) (h : s.checkName name key kind = .error cause)
    (hlabel : LabelledName source.toList gs name place (s.find? key name 0)) :
    Labelled source.toList gs cause := by
  subst hplace
  rcases Scope.checkName_eq_error h with rfl | ⟨fault, rfl⟩
  · exact hlabel
  · exact hlabel

/-- The problems with the procedures of a group. -/
theorem labelled_of_checkProcedures {g : Group Setting} {bound : Nat} (hmem : g ∈ gs)
    (hnamed : named? gs config.name = some g) (hg : g.Marked source.toList bound)
    (hnames : g.map Setting.value = Decode.names config)
    (h : (Scope.mk source [config.name]).checkProcedures config [] config.procedures =
      .error cause) : Labelled source.toList gs cause := by
  obtain ⟨before, d, after, hsplit, hnodup, hbefore, hcase⟩ :=
    Scope.checkProcedures_eq_error List.nodup_nil h
  rw [List.append_nil] at hnodup hcase
  rcases hcase with ⟨span, rfl⟩ | hmethod | ⟨husable, hagain, rfl⟩
  · exact trivial
  · -- the methods before are usable, so none of them has the name
    have hnot : d.methodName ∉ before.map (·.methodName) := by
      intro hmem
      obtain ⟨b, hb, heq⟩ := List.mem_map.1 hmem
      have husable : Usable d.methodName := heq ▸ hbefore b hb
      rw [Scope.checkMethod_eq_ok_iff.2 husable] at hmethod
      cases hmethod
    have hfirst : IsFirst (·.methodName) config.procedures d.methodName d := by
      rw [hsplit]
      exact isFirst_of_not_mem hnot
    obtain ⟨a, ha, hkey, hpoints⟩ := exists_methods hg hnames hfirst
    rcases Scope.checkMethod_eq_error hmethod with ⟨method, hd, hcheck⟩ | ⟨hd, hcause⟩
    · have hname : d.methodName = method := by rw [Declaration.methodName, hd, Option.getD_some]
      have hmethodKey : d.methodKey = "method" := by rw [Declaration.methodKey, hd]; rfl
      rw [hname] at ha hpoints
      rw [hmethodKey] at hkey hpoints
      exact labelledName_of_checkName ("method in '" ++ config.name ++ "'") rfl hcheck
        (.inr (.inl ⟨config.name, g, a, rfl, hnamed, ha, hkey, hpoints⟩))
    · have hname : d.methodName = d.name := by rw [Declaration.methodName, hd, Option.getD_none]
      have hmethodKey : d.methodKey = "name" := by rw [Declaration.methodKey, hd]; rfl
      rw [hname] at ha hpoints
      rw [hmethodKey] at hkey hpoints
      rcases hcause with rfl | ⟨fault, rfl⟩
      · exact ⟨g, hmem, a, ha, hkey, hpoints⟩
      · exact ⟨g, hmem, a, ha, hkey, hpoints⟩
  · rw [List.mem_reverse] at hagain
    obtain ⟨c, htwo⟩ := exists_areFirstTwo after (List.nodup_reverse.1 hnodup) hagain
    rw [← hsplit] at htwo
    obtain ⟨a, b, hab, hlt, hpoints⟩ :=
      exists_methods_twice (s := Scope.mk source [config.name]) rfl hg hnames husable htwo
    exact ⟨g, a, b, hnamed, hab, hlt, hpoints⟩

/-- The problems with a group besides its name. -/
theorem labelled_of_checkContext {g : Group Setting} {bound : Nat} (hmem : g ∈ gs)
    (hnamed : named? gs config.name = some g) (hg : g.Marked source.toList bound)
    (hnames : g.map Setting.value = Decode.names config)
    (h : (Scope.mk source [config.name]).checkContext config = .error cause) :
    Labelled source.toList gs cause := by
  unfold Scope.checkContext at h
  split at h
  next e hnamespace =>
    obtain rfl := Except.error.inj h
    rcases Scope.checkNamespace_eq_error hnamespace with ⟨segment, span, rfl⟩ | ⟨fault, span, rfl⟩
    · exact .inr (.inr ⟨config.name, rfl⟩)
    · exact .inr (.inr ⟨config.name, rfl⟩)
  next =>
    split at h
    next e hdatabase =>
      obtain rfl := Except.error.inj h
      rcases Scope.checkDatabase_eq_error hdatabase with ⟨span, rfl⟩ | rfl
      · exact trivial
      · exact trivial
    next => exact labelled_of_checkProcedures hmem hnamed hg hnames h

/-- The problems of validation. -/
theorem labelled_of_validate {m : Manifest} (hagrees : Agrees source.toList gs m.contexts)
    (h : m.validate source = .error cause) : Labelled source.toList gs cause := by
  unfold Manifest.validate at h
  split at h
  · obtain rfl := Except.error.inj h
    exact trivial
  · obtain ⟨before, config, after, hsplit, hnodup, hbefore, hcase⟩ :=
      Scope.checkContexts_eq_error List.nodup_nil h
    rw [List.append_nil] at hnodup hcase
    rcases hcase with hname | ⟨husable, ⟨hagain, rfl⟩ | ⟨hfresh, hcontext⟩⟩
    · have hnot : config.name ∉ before.map (·.name) := by
        intro hmem
        obtain ⟨b, hb, heq⟩ := List.mem_map.1 hmem
        have husable : Usable config.name := heq ▸ hbefore b hb
        rw [Scope.checkName_eq_ok_iff.2 husable] at hname
        cases hname
      have hfirst : IsFirst (·.name) m.contexts config.name config := by
        rw [hsplit]
        exact isFirst_of_not_mem hnot
      obtain ⟨a, ha, hpoints⟩ := exists_names hagrees hfirst
      exact labelledName_of_checkName "context" rfl hname (.inl ⟨rfl, a, ha, hpoints⟩)
    · rw [List.count_eq_one_of_mem hnodup hagain]
      rw [List.mem_reverse] at hagain
      obtain ⟨c, htwo⟩ := exists_areFirstTwo after (List.nodup_reverse.1 hnodup) hagain
      rw [← hsplit] at htwo
      exact exists_names_twice hagrees husable htwo
    · rw [List.mem_reverse] at hfresh
      have hfind : m.contexts.find? (·.name == config.name) = some config := by
        have hbefore : before.find? (·.name == config.name) = none := by
          refine List.find?_eq_none.2 fun b hb heq => hfresh ?_
          exact List.mem_map.2 ⟨b, hb, eq_of_beq heq⟩
        rw [hsplit, List.find?_append, hbefore, List.find?_cons_of_pos (by simp), Option.none_or]
      obtain ⟨bound, hmarked⟩ := hagrees.marked
      obtain ⟨g, hg, hnamed, hnames⟩ := exists_named hagrees.named hfind
      exact labelled_of_checkContext hg hnamed (hmarked.groups g hg) hnames hcontext

end

/-- What is read from the text of a sheet agrees with its settings. -/
theorem agrees_of_read? {lines : List Line} (h : ∀ line ∈ lines, line.Formed) {root : Entries}
    (hread : Toml.read? (String.ofList (text lines)) = some root) {m : Manifest}
    (hm : Manifest.ofEntries root = .ok m) : Agrees (text lines) (groups lines) m.contexts := by
  obtain ⟨hgroups, htidy⟩ := groupsOf_of_read? h hread
  exact ⟨hgroups.symm.trans (Decode.groupsOf_of_ofEntries htidy hm), marked_groups h⟩

/-- **Labels.** Whatever validation rejects in a manifest whose texts stand on lines of their own,
every label of a name is found, and there is a setting of the declaration at fault that it is for. A
method given twice is given by the first two of the settings for it in the group of that name: the
first label lies on the earlier one exactly if no setting further up in the text reads the same, and
the second label on the later one exactly if none does but the earlier one. The label of a group
that is declared again is like the second, and that of a name that is not usable like the first. -/
theorem labelled_of_readCause {lines : List Line} (h : ∀ line ∈ lines, line.Formed)
    {cause : ProblemCause}
    (hcause : Manifest.readCause (String.ofList (text lines)) = .error cause) :
    Labelled (text lines) (groups lines) cause := by
  unfold Manifest.readCause at hcause
  split at hcause
  · obtain rfl := Except.error.inj hcause
    exact trivial
  next root hread =>
    split at hcause
    · obtain rfl := Except.error.inj hcause
      exact trivial
    next m hm =>
      have hagrees := agrees_of_read? h hread hm
      split at hcause
      next e hcheck =>
        obtain rfl := Except.error.inj hcause
        have hsource : (String.ofList (text lines)).toList = text lines := String.toList_ofList
        rw [← hsource] at hagrees ⊢
        exact labelled_of_validate hagrees hcheck
      next => cases hcause

/-! ### A method of another group -/

/-- A line without blanks around it. -/
def Line.of (content : Content) : Line := ⟨[], content, [], false⟩

/-- The lines of a manifest of two groups: the second one declares twice the method that the first
one declares. -/
def clash : List Line :=
  [.header .group, .text [] "name" "First", .text [] "namespace" "Acme",
    .text ["database"] "url" "db", .text ["output"] "host" "a.cs",
    .header .procedure, .text [] "name" "Find",
    .header .group, .text [] "name" "Second", .text [] "namespace" "Acme",
    .text ["database"] "url" "db", .text ["output"] "host" "b.cs",
    .header .procedure, .text [] "name" "Find",
    .header .procedure, .text [] "name" "Find", .blank].map Line.of

theorem formed_of {content : Content} (h : content.Formed) : (Line.of content).Formed :=
  ⟨List.forall_mem_nil _, h, List.forall_mem_nil _⟩

theorem formed_clash : ∀ line ∈ clash, line.Formed := by
  refine List.forall_mem_map.2 fun content hcontent => formed_of ?_
  revert content
  simp only [List.forall_mem_cons, Content.Formed, List.not_mem_nil, false_implies, implies_true]
  refine ⟨trivial, ?_, ?_, ?_, ?_, trivial, ?_, trivial, ?_, ?_, ?_, ?_, trivial, ?_, trivial, ?_,
    trivial, trivial⟩ <;> decide

/-- The declaration that both groups have. -/
def finding : Declaration := ⟨"Find", none, none, none, []⟩

/-- The manifest of these lines. -/
def clashManifest : Manifest where
  contexts :=
    [⟨"First", "Acme", ⟨some "db", none⟩, ⟨"a.cs", none, false, none⟩, [finding]⟩,
      ⟨"Second", "Acme", ⟨some "db", none⟩, ⟨"b.cs", none, false, none⟩, [finding, finding]⟩]

/-- In whatever text it stands, the manifest is rejected for the method of the second group. -/
theorem validate_clash (source : String) : clashManifest.validate source =
    .error (.duplicateMethod "Find" "Second" (Locate.valueSpan? source "name" "Find" 0)
      (Locate.valueSpan? source "name" "Find" 1)) := by
  have hfirst : ∀ s : Scope, s.checkName "First" "name" "context" = .ok () := fun _ => rfl
  have hsecond : ∀ s : Scope, s.checkName "Second" "name" "context" = .ok () := fun _ => rfl
  have hnamespace : ∀ s : Scope, s.checkNamespace "Acme" = .ok () := fun _ => rfl
  have hmethod : ∀ s : Scope, s.checkMethod finding = .ok () := fun _ => rfl
  have hblank : Text.allBlank "Find" = false := by decide
  have hname : finding.methodName = "Find" := rfl
  have hdefault : finding.method = none := rfl
  have hspelled : finding.name = "Find" := rfl
  simp [clashManifest, Manifest.validate, Scope.checkContexts, Scope.checkContext, hfirst, hsecond,
    hnamespace, Scope.checkDatabase, DatabaseConfig.source?, Scope.checkProcedures, hblank, hmethod,
    hname, Scope.methodSpan?, Scope.methodSpans, hdefault, hspelled, Scope.find?]

theorem readCause_of_validate {source : String} {root : Entries} {m : Manifest}
    {cause : ProblemCause} (hread : Toml.read? source = some root)
    (hm : Manifest.ofEntries root = .ok m) (h : m.validate source = .error cause) :
    Manifest.readCause source = .error cause := by
  simp [Manifest.readCause, hread, hm, h]

set_option maxRecDepth 4000 in
theorem readCause_clash : Manifest.readCause (String.ofList (text clash)) =
    .error (.duplicateMethod "Find" "Second" (some ⟨120, 4⟩) (some ⟨247, 4⟩)) := by
  have hdecoded : (clash.foldlM step ([], [])).bind
      (fun s => (Manifest.ofEntries s.2).toOption) = some clashManifest := by
    decide +kernel
  have hfound : Locate.valueOffsets (text clash) "name".toList "Find".toList = [120, 247, 285] := by
    decide +kernel
  obtain ⟨s, hs, hm⟩ := Option.bind_eq_some_iff.1 hdecoded
  have hread : Toml.read? (String.ofList (text clash)) = some s.2 := by
    rw [read?_text formed_clash, hs, Option.map_some]
  have hentries : Manifest.ofEntries s.2 = .ok clashManifest := by
    cases h : Manifest.ofEntries s.2 with
    | error e => simp [h, Except.toOption] at hm
    | ok m => simpa [h, Except.toOption] using hm
  have hsource : (String.ofList (text clash)).toList = text clash := String.toList_ofList
  generalize String.ofList (text clash) = source at hread hsource
  refine readCause_of_validate hread hentries ?_
  rw [validate_clash, Locate.valueSpan?, Locate.valueSpan?, hsource, hfound]
  rfl

/-- The second group gives its method twice, and has its own settings for that. -/
theorem labelled_clash :
    (∀ line ∈ clash, line.Formed) ∧
    Manifest.readCause (String.ofList (text clash)) =
      .error (.duplicateMethod "Find" "Second" (some ⟨120, 4⟩) (some ⟨247, 4⟩)) ∧
    Labelled (text clash) (groups clash)
      (.duplicateMethod "Find" "Second" (some ⟨120, 4⟩) (some ⟨247, 4⟩)) :=
  ⟨formed_clash, readCause_clash, labelled_of_readCause formed_clash readCause_clash⟩

/-- Neither label lies on the declaration it is for: the first one lies on a declaration of the
first group, and the second one on the earlier declaration. -/
theorem clash_mislabelled :
    (∀ line ∈ clash, line.Formed) ∧
    ∃ first second a b, Manifest.readCause (String.ofList (text clash)) =
        .error (.duplicateMethod "Find" "Second" first second) ∧
      (named? (groups clash) "Second").map Group.methods = some [a, b] ∧
      a.value = "Find" ∧ b.value = "Find" ∧
      first ≠ some a.span ∧ second ≠ some b.span ∧ second = some a.span := by
  have hmethods : (named? (groups clash) "Second").map Group.methods =
      some [⟨"name", "Find", 247⟩, ⟨"name", "Find", 285⟩] := by
    decide +kernel
  exact ⟨formed_clash, _, _, _, _, readCause_clash, hmethods, rfl, rfl, by decide, by decide, rfl⟩

end Sprocket.Sheet
