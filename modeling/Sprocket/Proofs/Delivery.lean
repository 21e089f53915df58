import Sprocket.Command.Run
import Sprocket.Proofs.Generation

/-!
# All or nothing

The command `generate`, run in a world that keeps a journal of the files it is asked to write.
Nothing is written or shown before every group of a run has been resolved and rendered; a dry run
shows what another run writes; and a run about one group makes of it what the run about all of them
does.

* `World`, `World.perform`: what a run finds, and the run itself with its journal;
* `Refused`, `Delivered`, `Dumped`: how runs end that go wrong, that go well, and that print
  contexts;
* `runGenerate_of_selected`: a run in terms of the two phases of a generation;
* `generate_all_or_nothing`: which runs end in which way.
-/

namespace Sprocket.Command

open Generation (Surroundings)

/-- The files that were asked to be written, with their contents, in order. -/
abbrev Journal : Type := List (String × String)

/-- What a run finds: the text of the manifest, the variables, the systems that connection strings
lead to, and the errors that writing is answered with. -/
structure World where
  source : String
  environment : String → Option String
  remote : String → Remote
  refusal : String → String → Option String

/-- What a run leaves: its outcome and its journal. -/
abbrev Left : Type := Outcome × Journal

/-- The journal of artifacts. -/
def entries (artifacts : List Artifact) : Journal := artifacts.map fun a => (a.path, a.content)

/-- The artifacts of deliveries, in order. -/
def allArtifacts (ds : List Delivery) : List Artifact := ds.flatMap (·.artifacts)

/-- What is shown of an artifact that is not written. -/
def preview (a : Artifact) : List String := ["── " ++ a.path ++ " ──", a.content]

/-- What is shown of a delivery that was written. -/
def summary (d : Delivery) : List String :=
  (d.context.name ++ " (" ++ toString d.context.methods.length ++ " methods)") ::
    d.artifacts.map fun a => "  + " ++ a.path ++ " [" ++ a.backend.name ++ "]"

/-- A run fails, shows nothing and writes nothing. -/
structure Refused (left : Left) : Prop where
  ending : ∃ chain, left.1.ending = .failed chain
  output : left.1.output = []
  journal : left.2 = []

/-- A run ends well with deliveries: it writes their artifacts in order, or only shows them if it is
a dry one, and tells how many there are. -/
structure Delivered (dryRun : Bool) (ds : List Delivery) (left : Left) : Prop where
  ending : left.1.ending = .done
  written : dryRun = false → left.2 = entries (allArtifacts ds) ∧
    left.1.output = ds.flatMap summary ++
      ["", "✓ Generated " ++ toString (allArtifacts ds).length ++ " files"]
  previewed : dryRun = true → left.2 = [] ∧
    left.1.output = (allArtifacts ds).flatMap preview ++
      ["── Summary ──", toString (allArtifacts ds).length ++ " files would be generated"]

/-- A run ends well and shows contexts, and nothing is written. -/
structure Dumped (contexts : List Context) (left : Left) : Prop where
  ending : left.1.ending = .done
  output : left.1.output = [(Json.array (contexts.map (·.toJson))).pretty 0]
  journal : left.2 = []

/-- Two runs show the same, end in the same way and write the same; on the way they may announce
different things. -/
structure Agree (left left' : Left) : Prop where
  output : left.1.output = left'.1.output
  ending : left.1.ending = left'.1.ending
  journal : left.2 = left'.2

theorem Refused.ending_ne_done {left : Left} (h : Refused left) : left.1.ending ≠ .done := by
  obtain ⟨chain, hfailed⟩ := h.ending
  rw [hfailed]
  exact nofun

theorem Refused.of_agree {left left' : Left} (h : Refused left') (ha : Agree left left') :
    Refused left :=
  ⟨ha.ending ▸ h.ending, ha.output ▸ h.output, ha.journal ▸ h.journal⟩

theorem Delivered.of_agree {dryRun : Bool} {ds : List Delivery} {left left' : Left}
    (h : Delivered dryRun ds left') (ha : Agree left left') : Delivered dryRun ds left := by
  constructor
  · rw [ha.ending, h.ending]
  · rw [ha.journal, ha.output]
    exact h.written
  · rw [ha.journal, ha.output]
    exact h.previewed

theorem Dumped.of_agree {contexts : List Context} {left left' : Left}
    (h : Dumped contexts left') (ha : Agree left left') : Dumped contexts left :=
  ⟨ha.ending ▸ h.ending, ha.output ▸ h.output, ha.journal ▸ h.journal⟩

/-! ### Reports -/

theorem allArtifacts_generated (ds : List Delivery) :
    Generated.allArtifacts (ds.map Delivery.generated) = allArtifacts ds := by
  rw [Generated.allArtifacts, List.flatMap_map]
  rfl

theorem outputLines_append (lines lines' : List ReportLine) :
    ReportLine.outputLines (lines ++ lines') =
      ReportLine.outputLines lines ++ ReportLine.outputLines lines' := by
  simp [ReportLine.outputLines]

theorem outputLines_flatMap {α : Type} (as : List α) (lines : α → List ReportLine) :
    ReportLine.outputLines (as.flatMap lines) =
      as.flatMap fun a => ReportLine.outputLines (lines a) := by
  simp [ReportLine.outputLines, List.filter_flatMap, List.map_flatMap]

theorem outputLines_writtenLines (d : Delivery) :
    ReportLine.outputLines (Generated.writtenLines d.generated) = summary d := by
  have hitems : ∀ artifacts : List Artifact,
      ReportLine.outputLines (artifacts.map fun a =>
        .addedItem (a.path ++ " [" ++ a.backend.name ++ "]")) =
      artifacts.map fun a => "  + " ++ a.path ++ " [" ++ a.backend.name ++ "]" := by
    intro artifacts
    induction artifacts with
    | nil => rfl
    | cons a rest ih =>
      simp only [List.map_cons, ← ih]
      simp [ReportLine.outputLines, ReportLine.isWarning, ReportLine.terminal, String.append_assoc]
  rw [summary, ← hitems]
  rfl

theorem output_report_written (ds : List Delivery) :
    ReportLine.outputLines (Generated.report (ds.map Delivery.generated) false) =
      ds.flatMap summary ++
        ["", "✓ Generated " ++ toString (allArtifacts ds).length ++ " files"] := by
  rw [Generated.report, if_neg Bool.false_ne_true, outputLines_append, List.flatMap_map,
    outputLines_flatMap, Generated.artifactCount, allArtifacts_generated]
  have hsuccess : "✓ Generated " = "✓ " ++ "Generated " := rfl
  simp only [outputLines_writtenLines, hsuccess, String.append_assoc]
  rfl

theorem output_report_previewed (ds : List Delivery) :
    ReportLine.outputLines (Generated.report (ds.map Delivery.generated) true) =
      (allArtifacts ds).flatMap preview ++
        ["── Summary ──", toString (allArtifacts ds).length ++ " files would be generated"] := by
  rw [Generated.report, if_pos rfl, outputLines_append, outputLines_flatMap,
    Generated.artifactCount, allArtifacts_generated]
  rfl

/-! ### The operations of a run -/

/-- A composed computation goes on with the value and the state that its first part leaves. -/
theorem run_bind_of_run {σ α β : Type} {x : StateM σ α} {s s' : σ} {a : α}
    (h : x.run s = (a, s')) (f : α → StateM σ β) : (x >>= f).run s = (f a).run s' := by
  rw [StateT.run_bind, h]
  rfl

section

variable {σ : Type} {w : Workspace (StateM σ)} {a : Artifact} {s s' : σ}

/-- After an artifact whose writing is answered with no error, the others are written. -/
theorem writeArtifacts_of_written (h : (w.write a.path a.content).run s = (none, s'))
    (rest : List Artifact) :
    (writeArtifacts w (a :: rest)).run s = (writeArtifacts w rest).run s' := by
  rw [writeArtifacts, run_bind_of_run h]

/-- An artifact whose writing is answered with an error ends the writing. -/
theorem writeArtifacts_of_refused {cause : String}
    (h : (w.write a.path a.content).run s = (some cause, s')) (rest : List Artifact) :
    (writeArtifacts w (a :: rest)).run s = (some (writeFailure a.path cause), s') := by
  rw [writeArtifacts, run_bind_of_run h]
  rfl

end

/-- Variables are read from an environment that does not change. -/
theorem readEnvironment_eq {m : Type → Type} [Monad m] [LawfulMonad m] {w : Workspace m}
    {environment : String → Option String}
    (h : ∀ key, w.environment key = pure (environment key)) (keys : List String) :
    readEnvironment w keys = pure (keys.filterMap fun key => (environment key).map (key, ·)) := by
  simp [readEnvironment, h]

/-- A variable that was read is found under its name, however often it was read. -/
theorem lookup_read {keys : List String} {key : String} (environment : String → Option String)
    (h : key ∈ keys) :
    (keys.filterMap fun key => (environment key).map (key, ·)).lookup key = environment key := by
  induction keys with
  | nil => cases h
  | cons first rest ih =>
    by_cases heq : key = first
    · subst heq
      cases hvalue : environment key with
      | some value => simp [hvalue]
      | none =>
        by_cases hrest : key ∈ rest
        · simp [hvalue, ih hrest]
        · have hnone : ∀ p ∈ rest.filterMap fun key => (environment key).map (key, ·),
              (key == p.1) = false := by
            intro p hp
            obtain ⟨other, hother, hsome⟩ := List.mem_filterMap.1 hp
            obtain ⟨value, -, rfl⟩ := Option.map_eq_some_iff.1 hsome
            exact beq_eq_false_iff_ne.2 fun heq => hrest (heq ▸ hother)
          simpa [hvalue, List.lookup_eq_none_iff] using hnone
    · have hrest := ih ((List.mem_cons.1 h).resolve_left heq)
      cases hvalue : environment first with
      | none => simpa [hvalue] using hrest
      | some value =>
        have hne : (key == first) = false := beq_eq_false_iff_ne.2 heq
        simpa [hvalue, List.lookup_cons, hne] using hrest

/-- A run about groups that were selected goes through the two phases of a generation, wherever
reading the manifest and the environment changes nothing. -/
theorem runGenerate_of_selected {σ : Type} {w : Workspace (StateM σ)} {r : GenerateRequest} {s : σ}
    {environment : String → Option String} {file : ManifestFile} {configs : List ContextConfig}
    (hread : (openManifest w r.config).run s = (.ok file, s))
    (henvironment : ∀ key, w.environment key = pure (environment key))
    (hselect : Generation.select file.manifest r.context = .ok configs) :
    (runGenerate w r).run s =
      (follow r.config (Generation.resolveAll ⟨environment, w.remote⟩ configs) fun resolved =>
        if r.dumpContexts then pure (dump resolved)
        else deliver w r file.root resolved).run s := by
  -- the variables read beforehand are all that resolving asks for
  have hsame : Generation.resolveAll
      ⟨fun key => ((environmentKeys configs).filterMap fun key =>
        (environment key).map (key, ·)).lookup key, w.remote⟩ configs =
      Generation.resolveAll ⟨environment, w.remote⟩ configs := by
    refine Generation.resolveAll_congr rfl fun config hconfig key hkey => ?_
    exact lookup_read environment (List.mem_filterMap.2 ⟨config, hconfig, hkey⟩)
  unfold runGenerate
  rw [run_bind_of_run hread]
  simp only [hselect, readEnvironment_eq henvironment, pure_bind, ← hsame]

namespace World

/-- The operations of a world. -/
def workspace (w : World) : Workspace (StateM Journal) where
  contains _ := pure true
  read _ := pure (some w.source)
  write path content := do
    modify (· ++ [(path, content)])
    return w.refusal path content
  environment key := pure (w.environment key)
  remote := w.remote
  confirm _ := pure (.error unattended)

/-- Runs `generate` in a world. -/
def perform (w : World) (r : GenerateRequest) : Left := (runGenerate w.workspace r).run []

/-- Where connection strings and remote systems come from in a world. -/
def surroundings (w : World) : Surroundings := ⟨w.environment, w.remote⟩

/-- The world lets every artifact of deliveries be written. -/
def Accepts (w : World) (ds : List Delivery) : Prop :=
  ∀ a ∈ allArtifacts ds, w.refusal a.path a.content = none

/-! ### The journal -/

variable {w : World} {r : GenerateRequest}

/-- What a part of a run that failed leaves. -/
theorem follow_of_error {α : Type} {config : String} {t : Generation.Run α} {e : GenerationError}
    (h : t.result = .error e) (next : α → StateM Journal Outcome) :
    Refused ((follow config t next).run []) := by
  unfold follow
  rw [h]
  exact ⟨⟨e.chain config, rfl⟩, rfl, rfl⟩

/-- What a part of a run that went well leaves is what comes after it. -/
theorem follow_of_ok {α : Type} {config : String} {t : Generation.Run α} {a : α}
    (h : t.result = .ok a) (next : α → StateM Journal Outcome) :
    Agree ((follow config t next).run []) ((next a).run []) := by
  unfold follow
  rw [h]
  exact ⟨rfl, rfl, rfl⟩

/-- An artifact that is to be written is noted in the journal, whatever the answer is. -/
theorem write_run (a : Artifact) (journal : Journal) :
    (w.workspace.write a.path a.content).run journal =
      (w.refusal a.path a.content, journal ++ [(a.path, a.content)]) := rfl

/-- Artifacts whose writing is not refused are all written, in order. -/
theorem writeArtifacts_run {artifacts : List Artifact} (journal : Journal)
    (h : ∀ a ∈ artifacts, w.refusal a.path a.content = none) :
    (writeArtifacts w.workspace artifacts).run journal = (none, journal ++ entries artifacts) := by
  induction artifacts generalizing journal with
  | nil => simp [writeArtifacts, entries]; rfl
  | cons a rest ih =>
    obtain ⟨ha, hrest⟩ := List.forall_mem_cons.1 h
    rw [writeArtifacts_of_written ((write_run a journal).trans (by rw [ha])), ih _ hrest]
    simp [entries]

/-- An artifact whose writing is refused ends the writing. -/
theorem writeArtifacts_refused {artifacts : List Artifact} (journal : Journal)
    (h : ∃ a ∈ artifacts, w.refusal a.path a.content ≠ none) :
    ∃ chain journal', (writeArtifacts w.workspace artifacts).run journal =
      (some chain, journal') := by
  induction artifacts generalizing journal with
  | nil => simp at h
  | cons a rest ih =>
    cases ha : w.refusal a.path a.content with
    | some cause =>
      exact ⟨_, _, writeArtifacts_of_refused ((write_run a journal).trans (by rw [ha])) rest⟩
    | none =>
      rw [writeArtifacts_of_written ((write_run a journal).trans (by rw [ha]))]
      obtain ⟨refused, hmem, hrefused⟩ := h
      refine ih _ ⟨refused, (List.mem_cons.1 hmem).resolve_left ?_, hrefused⟩
      rintro rfl
      exact hrefused ha

/-! ### Runs -/

theorem openManifest_run {path : String} {file : ManifestFile}
    (hfile : ManifestFile.ofContent path (some w.source) = .ok file) :
    (openManifest w.workspace path).run [] = (.ok file, []) := by
  rw [← hfile]
  rfl

/-- A run about groups that were selected goes through the two phases of a generation. -/
theorem perform_of_selected {file : ManifestFile} {configs : List ContextConfig}
    (hfile : ManifestFile.ofContent r.config (some w.source) = .ok file)
    (hselect : Generation.select file.manifest r.context = .ok configs) :
    w.perform r =
      (follow r.config (Generation.resolveAll w.surroundings configs) fun resolved =>
        if r.dumpContexts then pure (dump resolved)
        else deliver w.workspace r file.root resolved).run [] := by
  exact runGenerate_of_selected (openManifest_run hfile) (fun _ => rfl) hselect

/-- A name that no group has is refused, whatever the world is. -/
theorem perform_of_unknown {file : ManifestFile} {name : String}
    (hfile : ManifestFile.ofContent r.config (some w.source) = .ok file)
    (hname : r.context = some name) (h : name ∉ file.manifest.contextNames) :
    w.perform r = (.failed ((GenerationError.unknownContext name file.manifest.contextNames).chain
      r.config), []) := by
  unfold perform runGenerate
  rw [run_bind_of_run (openManifest_run hfile), hname]
  simp only [Generation.select_of_not_mem h]
  rfl

/-- A run whose groups are not all resolved is refused. -/
theorem refused_of_unresolved {file : ManifestFile} {configs : List ContextConfig}
    (hfile : ManifestFile.ofContent r.config (some w.source) = .ok file)
    (hselect : Generation.select file.manifest r.context = .ok configs)
    (h : ∃ config ∈ configs, Unresolved w.surroundings config) : Refused (w.perform r) := by
  rw [perform_of_selected hfile hselect]
  cases hresolved : (Generation.resolveAll w.surroundings configs).result with
  | error e => exact follow_of_error hresolved _
  | ok rs =>
    obtain ⟨config, hconfig, hnot⟩ := h
    obtain ⟨found, -, -, hfound⟩ :=
      exists_mem_of_forall₂ (Generation.resolveAll_eq_ok_iff.1 hresolved).flip hconfig
    exact absurd ⟨_, hfound⟩ (unresolved_iff.1 hnot)

/-- What a run does with the contexts that its groups are resolved to. -/
def proceed (w : World) (r : GenerateRequest) (root : String) (rs : List ResolvedContext) : Left :=
  (if r.dumpContexts then pure (dump rs) else deliver w.workspace r root rs :
    StateM Journal Outcome).run []

/-- A run whose groups are all resolved ends as what it does with their contexts. -/
theorem perform_of_resolved {file : ManifestFile} {configs : List ContextConfig}
    {rs : List ResolvedContext}
    (hfile : ManifestFile.ofContent r.config (some w.source) = .ok file)
    (hselect : Generation.select file.manifest r.context = .ok configs)
    (hresolved : (Generation.resolveAll w.surroundings configs).result = .ok rs) :
    Agree (w.perform r) (w.proceed r file.root rs) := by
  rw [perform_of_selected hfile hselect]
  exact follow_of_ok hresolved _

theorem proceed_dumped {root : String} (rs : List ResolvedContext) (hdump : r.dumpContexts = true) :
    Dumped (rs.map (·.context)) (w.proceed r root rs) := by
  rw [proceed, if_pos hdump]
  exact ⟨rfl, by rw [List.map_map]; rfl, rfl⟩

theorem proceed_refused {root : String} {rs : List ResolvedContext} {e : GenerationError}
    (hdump : r.dumpContexts = false) (h : (Generation.renderAll root rs).result = .error e) :
    Refused (w.proceed r root rs) := by
  rw [proceed, if_neg (by simp [hdump])]
  exact follow_of_error h _

/-- Contexts that are all rendered are written, or shown by a dry run, if writing is allowed. -/
theorem proceed_delivered {root : String} {rs : List ResolvedContext} {ds : List Delivery}
    (hdump : r.dumpContexts = false)
    (h : (Generation.renderAll root rs).result = .ok (ds.map Delivery.generated))
    (hwrite : r.dryRun = true ∨ w.Accepts ds) :
    Delivered r.dryRun ds (w.proceed r root rs) := by
  rw [proceed, if_neg (by simp [hdump])]
  refine Delivered.of_agree ?_ (follow_of_ok h _)
  cases hdry : r.dryRun with
  | true =>
    refine ⟨rfl, nofun, fun _ => ⟨rfl, ?_⟩⟩
    exact output_report_previewed ds
  | false =>
    have haccepts : w.Accepts ds := hwrite.resolve_left (by simp [hdry])
    have hwritten := writeArtifacts_run [] haccepts
    rw [← allArtifacts_generated, List.nil_append] at hwritten
    rw [if_neg Bool.false_ne_true, run_bind_of_run hwritten]
    refine ⟨rfl, fun _ => ⟨?_, ?_⟩, nofun⟩
    · rw [← allArtifacts_generated]
      rfl
    · exact output_report_written ds

/-- A run that writes and ends well was allowed to write everything. -/
theorem accepts_of_done {root : String} {rs : List ResolvedContext} {ds : List Delivery}
    (hdump : r.dumpContexts = false) (hdry : r.dryRun = false)
    (h : (Generation.renderAll root rs).result = .ok (ds.map Delivery.generated))
    (hdone : (w.proceed r root rs).1.ending = .done) : w.Accepts ds := by
  by_contra hrefused
  have hsome : ∃ a ∈ Generated.allArtifacts (ds.map Delivery.generated),
      w.refusal a.path a.content ≠ none := by
    rw [allArtifacts_generated]
    simpa [Accepts] using hrefused
  obtain ⟨chain, journal, hwritten⟩ := writeArtifacts_refused [] hsome
  rw [proceed, if_neg (by simp [hdump]), deliver, (follow_of_ok h _).ending, hdry,
    if_neg Bool.false_ne_true, run_bind_of_run hwritten] at hdone
  cases hdone

end World

/-! ### All runs -/

/-- How the runs about a selection end, where `configs` are the groups selected. -/
structure AllOrNothing (w : World) (file : ManifestFile) (selection : Option String)
    (configs : List ContextConfig) : Prop where
  unresolved : (∃ config ∈ configs, Unresolved w.surroundings config) →
    ∀ dryRun dumpContexts, Refused (w.perform ⟨file.path, selection, dryRun, dumpContexts⟩)
  undelivered : (∃ config ∈ configs, Undelivered w.surroundings config) →
    ∀ dryRun, Refused (w.perform ⟨file.path, selection, dryRun, false⟩)
  dumped : (∀ config ∈ configs, ¬ Unresolved w.surroundings config) →
    ∃ contexts, List.Forall₂ (ResolvedAs w.surroundings) configs contexts ∧
      ∀ dryRun, Dumped contexts (w.perform ⟨file.path, selection, dryRun, true⟩)
  delivered : (∀ config ∈ configs, ¬ Undelivered w.surroundings config) →
    ∃ ds, List.Forall₂ (DeliveryOf w.surroundings file.root) configs ds ∧
      ∀ dryRun, dryRun = true ∨ w.Accepts ds →
        Delivered dryRun ds (w.perform ⟨file.path, selection, dryRun, false⟩)

/-- A run about all groups that ends well is made up of the runs about each of them by its name. -/
structure Separable (w : World) (file : ManifestFile) (dryRun : Bool) : Prop where
  dumped : (w.perform ⟨file.path, none, dryRun, true⟩).1.ending = .done →
    ∃ contexts, List.Forall₂ (ResolvedAs w.surroundings) file.manifest.contexts contexts ∧
      Dumped contexts (w.perform ⟨file.path, none, dryRun, true⟩) ∧
      ∀ p ∈ file.manifest.contexts.zip contexts,
        Dumped [p.2] (w.perform ⟨file.path, some p.1.name, dryRun, true⟩)
  delivered : (w.perform ⟨file.path, none, dryRun, false⟩).1.ending = .done →
    ∃ ds, List.Forall₂ (DeliveryOf w.surroundings file.root) file.manifest.contexts ds ∧
      Delivered dryRun ds (w.perform ⟨file.path, none, dryRun, false⟩) ∧
      ∀ p ∈ file.manifest.contexts.zip ds,
        Delivered dryRun [p.2] (w.perform ⟨file.path, some p.1.name, dryRun, false⟩)

namespace World

variable {w : World} {r : GenerateRequest} {file : ManifestFile} {configs : List ContextConfig}

/-- A run that resolves its groups to contexts and is to show them does so. -/
theorem dumped_of_resolvedAs {contexts : List Context}
    (hfile : ManifestFile.ofContent r.config (some w.source) = .ok file)
    (hselect : Generation.select file.manifest r.context = .ok configs)
    (hdump : r.dumpContexts = true)
    (h : List.Forall₂ (ResolvedAs w.surroundings) configs contexts) :
    Dumped contexts (w.perform r) := by
  obtain ⟨rs, hresolved, rfl⟩ := Generation.exists_resolved h
  exact (proceed_dumped rs hdump).of_agree (perform_of_resolved hfile hselect hresolved)

/-- A run that makes deliveries of its groups hands them over. -/
theorem delivered_of_deliveryOf {ds : List Delivery}
    (hfile : ManifestFile.ofContent r.config (some w.source) = .ok file)
    (hselect : Generation.select file.manifest r.context = .ok configs)
    (hdump : r.dumpContexts = false)
    (h : List.Forall₂ (DeliveryOf w.surroundings file.root) configs ds)
    (hwrite : r.dryRun = true ∨ w.Accepts ds) : Delivered r.dryRun ds (w.perform r) := by
  obtain ⟨rs, hresolved, hrendered⟩ := Generation.phases_of_deliveries h
  exact (proceed_delivered hdump hrendered hwrite).of_agree
    (perform_of_resolved hfile hselect hresolved)

/-- A run one of whose groups is not delivered is refused. -/
theorem refused_of_undelivered
    (hfile : ManifestFile.ofContent r.config (some w.source) = .ok file)
    (hselect : Generation.select file.manifest r.context = .ok configs)
    (hdump : r.dumpContexts = false)
    (h : ∃ config ∈ configs, Undelivered w.surroundings config) : Refused (w.perform r) := by
  by_cases hunresolved : ∃ config ∈ configs, Unresolved w.surroundings config
  · exact refused_of_unresolved hfile hselect hunresolved
  · have hcontexts : ∀ config ∈ configs, ∃ context, ResolvedAs w.surroundings config context :=
      fun config hconfig => not_not.1 fun hnot =>
        hunresolved ⟨config, hconfig, unresolved_iff.2 hnot⟩
    obtain ⟨contexts, hcontexts⟩ := exists_forall₂_iff.2 hcontexts
    obtain ⟨rs, hresolved, -⟩ := Generation.exists_resolved hcontexts
    refine Refused.of_agree ?_ (perform_of_resolved hfile hselect hresolved)
    cases hrendered : (Generation.renderAll file.root rs).result with
    | error e => exact proceed_refused hdump hrendered
    | ok gs =>
      obtain ⟨ds, hds⟩ := Generation.exists_forall₂_deliveryOf hresolved hrendered
      obtain ⟨config, hconfig, hnot⟩ := h
      obtain ⟨d, -, hd⟩ := exists_mem_of_forall₂ hds.flip hconfig
      exact absurd ⟨d, hd⟩ ((undelivered_iff file.root).1 hnot)

theorem allOrNothing {selection : Option String}
    (hfile : ManifestFile.ofContent file.path (some w.source) = .ok file)
    (hselect : Generation.select file.manifest selection = .ok configs) :
    AllOrNothing w file selection configs where
  unresolved h dryRun dumpContexts := refused_of_unresolved hfile hselect h
  undelivered h dryRun := refused_of_undelivered hfile hselect rfl h
  dumped h := by
    obtain ⟨contexts, hcontexts⟩ := exists_forall₂_iff.2 fun config hconfig =>
      not_not.1 (unresolved_iff.not.1 (h config hconfig))
    exact ⟨contexts, hcontexts, fun _ => dumped_of_resolvedAs hfile hselect rfl hcontexts⟩
  delivered h := by
    obtain ⟨ds, hds⟩ := exists_forall₂_iff.2 fun config hconfig =>
      not_not.1 ((undelivered_iff file.root).not.1 (h config hconfig))
    exact ⟨ds, hds, fun dryRun hwrite =>
      delivered_of_deliveryOf (r := ⟨file.path, selection, dryRun, false⟩) hfile hselect rfl hds
        hwrite⟩

/-- The part of a run about all groups that is about one of them is the run about its name. -/
theorem separable (hfile : ManifestFile.ofContent file.path (some w.source) = .ok file)
    (hnames : file.manifest.contextNames.Nodup) (dryRun : Bool) : Separable w file dryRun := by
  have hall := allOrNothing hfile (Generation.select_of_selects hnames .all)
  have hone : ∀ config ∈ file.manifest.contexts,
      Generation.select file.manifest (some config.name) = .ok [config] := fun config hconfig =>
    Generation.select_of_selects hnames (.named hconfig)
  constructor
  · intro hdone
    have hresolved : ∀ config ∈ file.manifest.contexts, ¬ Unresolved w.surroundings config := by
      intro config hconfig hnot
      exact (hall.unresolved ⟨config, hconfig, hnot⟩ dryRun true).ending_ne_done hdone
    obtain ⟨contexts, hcontexts, hdumped⟩ := hall.dumped hresolved
    refine ⟨contexts, hcontexts, hdumped dryRun, ?_⟩
    rintro ⟨config, context⟩ hmem
    have hconfig := hone config (List.of_mem_zip hmem).1
    exact dumped_of_resolvedAs hfile hconfig rfl
      (.cons (List.forall₂_zip hcontexts hmem) .nil)
  · intro hdone
    have hdelivered : ∀ config ∈ file.manifest.contexts, ¬ Undelivered w.surroundings config := by
      intro config hconfig hnot
      exact (hall.undelivered ⟨config, hconfig, hnot⟩ dryRun).ending_ne_done hdone
    obtain ⟨ds, hds, hrun⟩ := hall.delivered hdelivered
    -- a run that was to write and ended well was refused no artifact, so none of the group's either
    have hwrite : dryRun = true ∨ w.Accepts ds := by
      cases dryRun with
      | true => exact .inl rfl
      | false =>
        obtain ⟨rs, hresolved, hrendered⟩ := Generation.phases_of_deliveries hds
        have hagree := perform_of_resolved (r := ⟨file.path, none, false, false⟩) hfile
          (Generation.select_of_selects hnames .all) hresolved
        exact .inr (accepts_of_done rfl rfl hrendered (hagree.ending ▸ hdone))
    refine ⟨ds, hds, hrun dryRun hwrite, ?_⟩
    rintro ⟨config, d⟩ hmem
    have hconfig := hone config (List.of_mem_zip hmem).1
    have hd : d ∈ ds := (List.of_mem_zip hmem).2
    refine delivered_of_deliveryOf (r := ⟨file.path, some config.name, dryRun, false⟩) hfile hconfig
      rfl (.cons (List.forall₂_zip hds hmem) .nil) (hwrite.imp_right fun haccepts a ha => ?_)
    rw [allArtifacts, List.flatMap_singleton] at ha
    exact haccepts a (List.mem_flatMap.2 ⟨d, hd, ha⟩)

/-- **All or nothing.** Let a run find a valid manifest. If a group it is about has no connection
string, cannot be built or cannot be rendered, the run fails with nothing shown and nothing written;
otherwise it writes the artifacts of its groups in order, and a dry run shows these instead. A run
that is to show the contexts fails the same way, but for rendering, which it does not do. Where the
run about all groups ends well, the run about one of them makes what the former made of it. A name
that no group has is refused, whatever the environment and the remote systems are. -/
theorem generate_all_or_nothing {path : String}
    (hfile : ManifestFile.ofContent path (some w.source) = .ok file) :
    (∀ selection configs, Selects file.manifest selection configs →
      AllOrNothing w file selection configs) ∧
    (∀ dryRun, Separable w file dryRun) ∧
    ∀ name, name ∉ file.manifest.contextNames → ∀ dryRun dumpContexts, ∀ w' : World,
      w'.source = w.source → w'.perform ⟨path, some name, dryRun, dumpContexts⟩ =
        (.failed ((GenerationError.unknownContext name file.manifest.contextNames).chain path),
          []) := by
  obtain ⟨m, hread, rfl⟩ := map_eq_ok_iff.1 hfile
  have hnames : m.contextNames.Nodup := (Manifest.wellFormed_of_read hread).distinct
  refine ⟨fun selection configs h => allOrNothing hfile (Generation.select_of_selects hnames h),
    separable hfile hnames, fun name hname dryRun dumpContexts w' hsource => ?_⟩
  exact perform_of_unknown (r := ⟨path, some name, dryRun, dumpContexts⟩)
    (hsource.symm ▸ hfile) rfl hname

/-- The shop on a server, where writing is never refused. -/
def ofShop (server : Remote) : World := ⟨shopText, fun _ => none, fun _ => server, fun _ _ => none⟩

/-- A shop that can be delivered is written to three files, or shown by a dry run; the name of
another group is refused. -/
theorem generate_all_or_nothing_shop :
    let w := ofShop (shopServer [⟨"Id", "integer"⟩, ⟨"Name", "text"⟩])
    ManifestFile.ofContent "shop.toml" (some w.source) = .ok ⟨"shop.toml", shopText, ⟨[shop]⟩⟩ ∧
    (∃ code typings markup, CSharp.render shopContext = .ok code ∧
      Typings.render false shopContext = .ok typings ∧
      Bindings.render false shopContext = .ok markup ∧
      ∀ dryRun, Delivered dryRun [⟨shopContext, [⟨.csharp, "a.cs", code⟩,
          ⟨.typescript, "a.d.ts", typings⟩, ⟨.angular, "a.html", markup⟩]⟩]
        (w.perform ⟨"shop.toml", none, dryRun, false⟩)) ∧
    w.perform ⟨"shop.toml", some "Shed", false, false⟩ =
      (.failed ["No context named 'Shed' in shop.toml (available: Shop)"], []) := by
  intro w
  have hfile : ManifestFile.ofContent "shop.toml" (some w.source) =
      .ok ⟨"shop.toml", shopText, ⟨[shop]⟩⟩ := by
    rw [ManifestFile.ofContent]
    exact map_eq_ok_iff.2 ⟨_, read_shopText _, rfl⟩
  obtain ⟨hall, -, hunknown⟩ := generate_all_or_nothing hfile
  refine ⟨hfile, ?_, hunknown "Shed" (by decide) false false w rfl⟩
  obtain ⟨code, hcode⟩ : ∃ code, CSharp.render shopContext = .ok code := ⟨_, rfl⟩
  obtain ⟨typings, htypings⟩ : ∃ typings, Typings.render false shopContext = .ok typings := ⟨_, rfl⟩
  obtain ⟨markup, hmarkup⟩ : ∃ markup, Bindings.render false shopContext = .ok markup := ⟨_, rfl⟩
  refine ⟨code, typings, markup, hcode, htypings, hmarkup, fun dryRun => ?_⟩
  have hfirst : ArtifactOf shopContext false "" .csharp "a.cs" ⟨.csharp, "a.cs", code⟩ :=
    ⟨rfl, rfl, hcode⟩
  have hsecond : ArtifactOf shopContext false "" .typescript "a.d.ts"
      ⟨.typescript, "a.d.ts", typings⟩ := ⟨rfl, rfl, htypings⟩
  have hthird : ArtifactOf shopContext false "" .angular "a.html" ⟨.angular, "a.html", markup⟩ :=
    ⟨rfl, rfl, hmarkup⟩
  have hd : DeliveryOf w.surroundings "" shop ⟨shopContext, [⟨.csharp, "a.cs", code⟩,
      ⟨.typescript, "a.d.ts", typings⟩, ⟨.angular, "a.html", markup⟩]⟩ :=
    ⟨⟨"db", rfl, rfl⟩, @ArtifactsOf.intro shopContext shop.output "" _ (some _) (some _) hfirst
      (.some hsecond) (.some hthird)⟩
  have hdelivered : ¬ Undelivered w.surroundings shop := fun hnot =>
    (undelivered_iff "").1 hnot ⟨_, hd⟩
  obtain ⟨ds, hds, hrun⟩ := (hall none [shop] .all).delivered (by simpa using hdelivered)
  obtain ⟨d, rfl, hd'⟩ : ∃ d, ds = [d] ∧ DeliveryOf w.surroundings "" shop d := by
    cases hds with
    | cons hd' hrest =>
      cases hrest
      exact ⟨_, rfl, hd'⟩
  rw [hd'.unique hd] at hrun
  exact hrun dryRun (.inr fun _ _ => rfl)

end World

end Sprocket.Command
