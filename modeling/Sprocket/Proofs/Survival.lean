import Mathlib.Data.List.Dedup
import Sprocket.Proofs.Delivery
import Sprocket.Proofs.Trees

/-!
# Which artifacts survive

A run of `generate` writes its artifacts one after another, each over what is there already, and
tells how many there were. Nothing keeps two of them from being written to the same place: there
the last one stays, and the run has written fewer files than it tells.

* `lastAt`: what artifacts leave at a place;
* `Landed`, `landed_of_writeArtifacts`: the tree after artifacts have been written;
* `Landed.survive_iff`, `Landed.count_iff`: when no artifact is lost, and when the number of
  files is that of the artifacts;
* `generated_survive_iff`: the same of every run that ends well.
-/

namespace Sprocket.Command

open Files (Tree Place)

/-- The content of the last of some artifacts that are written to a place. -/
def lastAt (t : Tree) (artifacts : List Artifact) (place : Place) : Option String :=
  (artifacts.reverse.find? fun a => t.place a.path = .ok place).map (·.content)

/-- The places that artifacts are written to. -/
def places (t : Tree) (artifacts : List Artifact) : List Place :=
  artifacts.filterMap fun a => (t.place a.path).toOption

/-- What writing artifacts in order leaves: every path leads to a place, a place that is written to
holds the last artifact that is, and the files at all other places are as they were. -/
structure Landed (t : Tree) (artifacts : List Artifact) (t' : Tree) : Prop where
  keeps : t.Keeps t'
  placed : ∀ a ∈ artifacts, ∃ place, t'.place a.path = .ok place
  files : ∀ place, t'.file? place = (lastAt t' artifacts place).or (t.file? place)

/-! ### The last artifact at a place -/

theorem lastAt_cons (t : Tree) (a : Artifact) (rest : List Artifact) (place : Place) :
    lastAt t (a :: rest) place =
      (lastAt t rest place).or (if t.place a.path = .ok place then some a.content else none) := by
  unfold lastAt
  rw [List.reverse_cons, List.find?_append, Option.map_or]
  by_cases h : t.place a.path = .ok place <;> simp [h]

/-- What is left at the place of an artifact is an artifact at that place. -/
theorem exists_lastAt {t : Tree} {artifacts : List Artifact} {a : Artifact} {place : Place}
    (ha : a ∈ artifacts) (hplace : t.place a.path = .ok place) :
    ∃ b ∈ artifacts, t.place b.path = .ok place ∧
      lastAt t artifacts place = some b.content := by
  unfold lastAt
  cases hfound : artifacts.reverse.find? fun a => t.place a.path = .ok place with
  | none =>
    have hnone := List.find?_eq_none.1 hfound a (List.mem_reverse.2 ha)
    exact absurd hplace (by simpa using hnone)
  | some b =>
    exact ⟨b, List.mem_reverse.1 (List.mem_of_find?_eq_some hfound),
      by simpa using List.find?_some hfound, rfl⟩

/-! ### Writing artifacts -/

variable {environment : String → Option String} {remote : String → Remote}
  {t t' : Tree} {artifacts : List Artifact}

/-- A write in a tree changes the tree, and tells what is wrong. -/
theorem write_run (a : Artifact) (t : Tree) :
    ((Workspace.ofTree environment remote).write a.path a.content).run t =
      ((t.write a.path a.content).2.map Files.FileError.message, (t.write a.path a.content).1) :=
  rfl

theorem writeArtifacts_cons_run {written : Tree} {a : Artifact}
    (h : t.write a.path a.content = (written, none)) (rest : List Artifact) :
    (writeArtifacts (.ofTree environment remote) (a :: rest)).run t =
      (writeArtifacts (.ofTree environment remote) rest).run written :=
  writeArtifacts_of_written ((write_run a t).trans (by rw [h]; rfl)) rest

theorem writeArtifacts_cons_failed {left : Tree} {a : Artifact} {e : Files.FileError}
    (h : t.write a.path a.content = (left, some e)) (rest : List Artifact) :
    (writeArtifacts (.ofTree environment remote) (a :: rest)).run t =
      (some (writeFailure a.path e.message), left) :=
  writeArtifacts_of_refused ((write_run a t).trans (by rw [h]; rfl)) rest

/-- Artifacts whose writing is answered with no error have landed. -/
theorem landed_of_writeArtifacts
    (h : (writeArtifacts (.ofTree environment remote) artifacts).run t = (none, t')) :
    Landed t artifacts t' := by
  induction artifacts generalizing t with
  | nil =>
    obtain rfl : t = t' := congrArg Prod.snd h
    exact ⟨.refl t, nofun, fun place => rfl⟩
  | cons a rest ih =>
    cases hwrite : t.write a.path a.content with
    | mk written error =>
      cases error with
      | some e =>
        rw [writeArtifacts_cons_failed hwrite] at h
        cases h
      | none =>
        rw [writeArtifacts_cons_run hwrite] at h
        obtain ⟨hkeeps, target, hplace, hfiles⟩ := Files.Tree.wrote_of_write hwrite
        have hrest := ih h
        have htarget := Files.Tree.place_of_keeps hrest.keeps hplace
        refine ⟨hkeeps.trans hrest.keeps, ?_, fun place => ?_⟩
        · exact List.forall_mem_cons.2 ⟨⟨target, htarget⟩, hrest.placed⟩
        · rw [hrest.files, lastAt_cons, hfiles, htarget, Option.or_assoc]
          by_cases hother : place = target
          · simp [hother]
          · have hne : target ≠ place := Ne.symm hother
            simp [hother, hne]

/-- Where every path leads to a place, the places are those of the paths. -/
theorem map_places (h : ∀ a ∈ artifacts, ∃ place, t.place a.path = .ok place) :
    artifacts.map (fun a => t.place a.path) = (places t artifacts).map .ok := by
  unfold places
  induction artifacts with
  | nil => rfl
  | cons a rest ih =>
    obtain ⟨⟨place, hplace⟩, hrest⟩ := List.forall_mem_cons.1 h
    simp [hplace, ih hrest, Except.toOption]

/-! ### What is lost -/

namespace Landed

/-- Every artifact's path is read as an artifact that was written to the same place. -/
theorem read_eq (h : Landed t artifacts t') {a : Artifact} (ha : a ∈ artifacts) :
    ∃ b ∈ artifacts, t'.place b.path = t'.place a.path ∧ t'.read a.path = .ok b.content := by
  obtain ⟨place, hplace⟩ := h.placed a ha
  obtain ⟨b, hb, hbplace, hlast⟩ := exists_lastAt ha hplace
  refine ⟨b, hb, hbplace.trans hplace.symm, Files.Tree.read_eq_ok_iff.2 ⟨place, hplace, ?_⟩⟩
  rw [h.files, hlast]
  rfl

/-- No artifact is lost exactly if artifacts that are written to the same place are the same. -/
theorem survive_iff (h : Landed t artifacts t') :
    (∀ a ∈ artifacts, t'.read a.path = .ok a.content) ↔
      ∀ a ∈ artifacts, ∀ b ∈ artifacts, t'.place a.path = t'.place b.path →
        a.content = b.content := by
  constructor
  · intro hread a ha b hb hplace
    have hsame : t'.read a.path = t'.read b.path := by
      unfold Files.Tree.read
      rw [hplace]
    rw [hread a ha, hread b hb, Except.ok.injEq] at hsame
    exact hsame
  · intro hsame a ha
    obtain ⟨b, hb, hplace, hread⟩ := h.read_eq ha
    rw [hread, hsame b hb a ha hplace]

/-- As many files are written as there are artifacts exactly if no two of these are written to the
same place. -/
theorem count_iff (h : Landed t artifacts t') :
    (places t' artifacts).dedup.length = artifacts.length ↔
      artifacts.Pairwise fun a b => t'.place a.path ≠ t'.place b.path := by
  have hplaces := map_places h.placed
  have hlength : artifacts.length = (places t' artifacts).length := by
    simpa using congrArg List.length hplaces
  have hinjective : Function.Injective (Except.ok : Place → Except Files.FileError Place) :=
    fun _ _ => Except.ok.inj
  calc (places t' artifacts).dedup.length = artifacts.length
      ↔ (places t' artifacts).Nodup := by
        rw [hlength, (List.dedup_sublist _).length_eq, List.dedup_eq_self]
    _ ↔ (artifacts.map fun a => t'.place a.path).Nodup := by
        rw [hplaces, List.nodup_map_iff hinjective]
    _ ↔ artifacts.Pairwise fun a b => t'.place a.path ≠ t'.place b.path := by
        rw [List.Nodup, List.pairwise_map]

end Landed

/-! ### Runs -/

/-- A run that ends well has gone on to what comes after its parts. -/
theorem exists_of_follow_done {σ α : Type} {config : String} {part : Generation.Run α}
    {next : α → StateM σ Outcome} {s s' : σ} {o : Outcome}
    (h : (follow config part next).run s = (o, s')) (hdone : o.ending = .done) :
    ∃ a o', part.result = .ok a ∧ (next a).run s = (o', s') ∧ o'.ending = .done ∧
      o.output = o'.output := by
  unfold follow at h
  cases hpart : part.result with
  | error e =>
    rw [hpart] at h
    cases h
    cases hdone
  | ok a =>
    rw [hpart] at h
    cases h
    exact ⟨a, _, rfl, rfl, hdone, rfl⟩

/-- A part of a run that goes well is followed by what comes after it. -/
theorem exists_follow_of_ok {σ α : Type} (config : String) {part : Generation.Run α}
    {next : α → StateM σ Outcome} {s s' : σ} {a : α} {o : Outcome}
    (h : part.result = .ok a) (hnext : (next a).run s = (o, s')) :
    ∃ notices remarks, (follow config part next).run s = (o.after notices remarks, s') := by
  unfold follow
  rw [h]
  exact ⟨_, _, run_bind_of_run hnext _⟩

/-- A manifest is opened without a change to the tree. -/
theorem openManifest_run (t : Tree) (path : String) :
    (openManifest (.ofTree environment remote) path).run t =
      (ManifestFile.ofContent path (t.read path).toOption, t) := rfl

/-- A run that ends well has found a valid manifest and the groups it is about. -/
theorem exists_selected_of_done {r : GenerateRequest} {o : Outcome}
    (hrun : (runGenerate (.ofTree environment remote) r).run t = (o, t'))
    (hdone : o.ending = .done) :
    ∃ file configs, ManifestFile.ofContent r.config (t.read r.config).toOption = .ok file ∧
      Generation.select file.manifest r.context = .ok configs ∧
      (follow r.config (Generation.resolveAll ⟨environment, remote⟩ configs) fun resolved =>
        if r.dumpContexts then pure (dump resolved)
        else deliver (.ofTree environment remote) r file.root resolved).run t = (o, t') := by
  have hread : (openManifest (.ofTree environment remote) r.config).run t =
      (ManifestFile.ofContent r.config (t.read r.config).toOption, t) := openManifest_run t r.config
  cases hfile : ManifestFile.ofContent r.config (t.read r.config).toOption with
  | error problem =>
    rw [runGenerate, run_bind_of_run hread, hfile] at hrun
    cases hrun
    cases hdone
  | ok file =>
    rw [hfile] at hread
    cases hselect : Generation.select file.manifest r.context with
    | error e =>
      rw [runGenerate, run_bind_of_run hread] at hrun
      simp only [hselect] at hrun
      cases hrun
      cases hdone
    | ok configs =>
      refine ⟨file, configs, rfl, hselect, ?_⟩
      rw [← hrun]
      exact (runGenerate_of_selected hread (fun _ => rfl) hselect).symm

/-- Contexts that are all rendered are reported as written where their artifacts can be. -/
theorem exists_deliver_of_ok {r : GenerateRequest} {root : String} {rs : List ResolvedContext}
    {gs : List Generated} (hdry : r.dryRun = false)
    (hrendered : (Generation.renderAll root rs).result = .ok gs)
    (hwritten : (writeArtifacts (.ofTree environment remote) (Generated.allArtifacts gs)).run t =
      (none, t')) :
    ∃ notices remarks, (deliver (.ofTree environment remote) r root rs).run t =
      ((Outcome.reported (Generated.report gs false)).after notices remarks, t') := by
  refine exists_follow_of_ok _ hrendered ?_
  rw [hdry, if_neg Bool.false_ne_true, run_bind_of_run hwritten]
  rfl

/-- Where the groups of a run can be delivered and their artifacts written, the run ends well. -/
theorem exists_run_of_deliveries {r : GenerateRequest} {file : ManifestFile}
    {configs : List ContextConfig} {ds : List Delivery}
    (hfile : ManifestFile.ofContent r.config (t.read r.config).toOption = .ok file)
    (hselect : Generation.select file.manifest r.context = .ok configs)
    (hdry : r.dryRun = false) (hdump : r.dumpContexts = false)
    (hds : List.Forall₂ (DeliveryOf ⟨environment, remote⟩ file.root) configs ds)
    (hwritten : (writeArtifacts (.ofTree environment remote) (allArtifacts ds)).run t =
      (none, t')) :
    ∃ o, (runGenerate (.ofTree environment remote) r).run t = (o, t') ∧ o.ending = .done ∧
      o.output = ds.flatMap summary ++
        ["", "✓ Generated " ++ toString (allArtifacts ds).length ++ " files"] := by
  obtain ⟨rs, hresolved, hrendered⟩ := Generation.phases_of_deliveries hds
  rw [← allArtifacts_generated] at hwritten
  obtain ⟨notices, remarks, hdeliver⟩ := exists_deliver_of_ok hdry hrendered hwritten
  have hopen : (openManifest (.ofTree environment remote) r.config).run t = (.ok file, t) := by
    rw [openManifest_run, hfile]
  have hrun := runGenerate_of_selected hopen (fun _ => rfl) hselect
  simp only [hdump, Bool.false_eq_true, if_false] at hrun
  obtain ⟨notices', remarks', hfollow⟩ := exists_follow_of_ok r.config hresolved hdeliver
  refine ⟨_, hrun.trans hfollow, rfl, ?_⟩
  rw [← output_report_written]
  rfl

/-- **Survival.** Let a run that is to write its artifacts end well. It has made deliveries of the
groups it is about, listed their artifacts and told how many there are. They have all been written,
in order, and no other file has changed. So none of them is lost exactly if those that are written
to the same place are the same, and there are as many files as it tells exactly if no two of them
are written to the same place. -/
theorem generated_survive_iff {r : GenerateRequest} {o : Outcome}
    (hrun : (runGenerate (.ofTree environment remote) r).run t = (o, t'))
    (hdone : o.ending = .done) (hdry : r.dryRun = false) (hdump : r.dumpContexts = false) :
    ∃ file configs ds,
      ManifestFile.ofContent r.config (t.read r.config).toOption = .ok file ∧
      Selects file.manifest r.context configs ∧
      List.Forall₂ (DeliveryOf ⟨environment, remote⟩ file.root) configs ds ∧
      o.output = ds.flatMap summary ++
        ["", "✓ Generated " ++ toString (allArtifacts ds).length ++ " files"] ∧
      Landed t (allArtifacts ds) t' ∧
      ((∀ a ∈ allArtifacts ds, t'.read a.path = .ok a.content) ↔
        ∀ a ∈ allArtifacts ds, ∀ b ∈ allArtifacts ds, t'.place a.path = t'.place b.path →
          a.content = b.content) ∧
      ((places t' (allArtifacts ds)).dedup.length = (allArtifacts ds).length ↔
        (allArtifacts ds).Pairwise fun a b => t'.place a.path ≠ t'.place b.path) := by
  obtain ⟨file, configs, hfile, hselect, hfollow⟩ := exists_selected_of_done hrun hdone
  obtain ⟨rs, o₁, hresolved, hnext, hdone₁, houtput₁⟩ := exists_of_follow_done hfollow hdone
  rw [if_neg (by simp [hdump])] at hnext
  obtain ⟨gs, o₂, hrendered, hwrite, hdone₂, houtput₂⟩ := exists_of_follow_done hnext hdone₁
  obtain ⟨ds, hds⟩ := Generation.exists_forall₂_deliveryOf hresolved hrendered
  obtain rfl : gs = ds.map Delivery.generated := by
    obtain ⟨rs', hresolved', hrendered'⟩ := Generation.phases_of_deliveries hds
    obtain rfl : rs = rs' := Except.ok.inj (hresolved.symm.trans hresolved')
    exact Except.ok.inj (hrendered.symm.trans hrendered')
  rw [allArtifacts_generated, hdry, if_neg Bool.false_ne_true] at hwrite
  cases hwritten : (writeArtifacts (.ofTree environment remote) (allArtifacts ds)).run t with
  | mk failure left =>
    rw [run_bind_of_run hwritten] at hwrite
    cases failure with
    | some chain =>
      cases hwrite
      cases hdone₂
    | none =>
      cases hwrite
      have hlanded := landed_of_writeArtifacts hwritten
      refine ⟨file, configs, ds, hfile, Generation.selects_of_select hselect, hds, ?_, hlanded,
        hlanded.survive_iff, hlanded.count_iff⟩
      rw [houtput₁, houtput₂, ← output_report_written]
      rfl

/-! ### Two groups with one output -/

/-- A tree with a manifest. -/
def treeOf (text : String) : Tree :=
  ⟨["work"], [(["work"], .directory), (["work", defaultManifestPath], .file text)]⟩

/-- A run about all groups that writes. -/
def writing : GenerateRequest := ⟨defaultManifestPath, none, false, false⟩

/-- A valid manifest in a tree is opened. -/
theorem ofContent_treeOf {text : String} {m : Manifest}
    (h : Manifest.read text defaultManifestPath = .ok m) :
    ManifestFile.ofContent defaultManifestPath ((treeOf text).read defaultManifestPath).toOption =
      .ok ⟨defaultManifestPath, text, m⟩ := by
  have hplace : (treeOf text).place defaultManifestPath = .ok ["work", defaultManifestPath] := rfl
  have hread : (treeOf text).read defaultManifestPath = .ok text := by
    rw [Files.Tree.read, hplace]
    rfl
  rw [hread, Except.toOption, ManifestFile.ofContent, h]
  rfl

/-- A run on a valid manifest whose groups can be delivered and written ends well. -/
theorem exists_run_treeOf {text : String} {m : Manifest} {ds : List Delivery}
    (h : Manifest.read text defaultManifestPath = .ok m)
    (hds : List.Forall₂ (DeliveryOf ⟨environment, remote⟩ "") m.contexts ds)
    (hwritten : (writeArtifacts (.ofTree environment remote) (allArtifacts ds)).run (treeOf text) =
      (none, t')) :
    ∃ o, (runGenerate (.ofTree environment remote) writing).run (treeOf text) = (o, t') ∧
      o.ending = .done ∧ o.output = ds.flatMap summary ++
        ["", "✓ Generated " ++ toString (allArtifacts ds).length ++ " files"] := by
  have hparent : Files.Path.parent? defaultManifestPath = some "" := by decide +kernel
  have hroot : ManifestFile.root ⟨defaultManifestPath, text, m⟩ = "" := by
    rw [ManifestFile.root, hparent, Option.getD_some]
  rw [← hroot] at hds
  exact exists_run_of_deliveries (r := writing) (ofContent_treeOf h) rfl rfl rfl hds hwritten

/-- A group without procedures whose output is that of all such groups. -/
def twin (name : String) : ContextConfig :=
  ⟨name, "Acme", ⟨some "db", none⟩, ⟨"a.cs", none, false, none⟩, []⟩

/-- The text of such a group. -/
def twinText (name : String) : String :=
  "[[contexts]]\nname='" ++ name ++
    "'\nnamespace='Acme'\ndatabase.url='db'\noutput.host='a.cs'\nprocedures=[]\n"

/-- What such a group is made into. -/
def twinDelivery (name content : String) : Delivery :=
  ⟨⟨"Acme", name, []⟩, [⟨.csharp, "a.cs", content⟩]⟩

theorem deliveryOf_twin {name content : String} (hname : Text.allBlank name = false)
    (h : CSharp.render ⟨"Acme", name, []⟩ = .ok content) :
    DeliveryOf ⟨environment, remote⟩ "" (twin name) (twinDelivery name content) := by
  have hpath : Files.Path.join "" "a.cs" = "a.cs" := by decide +kernel
  have hspace : Text.allBlank "Acme" = false := by decide +kernel
  have hcontext : (Build.context (remote "db") (twin name)).result = .ok ⟨"Acme", name, []⟩ :=
    Build.context_eq_ok_iff.2 ⟨⟨hname, hspace⟩, [], rfl, rfl⟩
  have hhost : ArtifactOf ⟨"Acme", name, []⟩ false "" .csharp "a.cs" ⟨.csharp, "a.cs", content⟩ :=
    ⟨rfl, hpath.symm, h⟩
  exact ⟨⟨"db", rfl, hcontext⟩, @ArtifactsOf.intro _ (twin name).output "" _ none none hhost .none
    .none⟩

/-- The tree after something was written to the output of a twin. -/
def treeWith (text content : String) : Tree :=
  ⟨["work"], [(["work", "a.cs"], .file content), (["work"], .directory),
    (["work", defaultManifestPath], .file text)]⟩

theorem write_treeOf (text content : String) :
    (treeOf text).write "a.cs" content = (treeWith text content, none) := rfl

theorem write_treeWith (text old content : String) :
    (treeWith text old).write "a.cs" content = (treeWith text content, none) := rfl

set_option maxRecDepth 4000 in
/-- What one such group is made into is found under its output. -/
theorem generated_survive_iff_twin :
    let w : Workspace (StateM Tree) := .ofTree (fun _ => none) fun _ => shopServer []
    ∃ o t', (runGenerate w writing).run (treeOf (twinText "Left")) = (o, t') ∧ o.ending = .done ∧
      ∃ content, CSharp.render ⟨"Acme", "Left", []⟩ = .ok content ∧
        t'.read "a.cs" = .ok content := by
  intro w
  have hread : Manifest.read (twinText "Left") defaultManifestPath = .ok ⟨[twin "Left"]⟩ :=
    Manifest.read_of_decoded (by decide +kernel) rfl _
  obtain ⟨content, hcontent⟩ : ∃ content, CSharp.render ⟨"Acme", "Left", []⟩ = .ok content :=
    ⟨_, rfl⟩
  have hd : DeliveryOf ⟨fun _ => none, w.remote⟩ "" (twin "Left") (twinDelivery "Left" content) :=
    deliveryOf_twin rfl hcontent
  have hwritten : (writeArtifacts w (allArtifacts [twinDelivery "Left" content])).run
      (treeOf (twinText "Left")) = (none, treeWith (twinText "Left") content) :=
    writeArtifacts_cons_run (write_treeOf _ _) []
  obtain ⟨o, hrun, hdone, -⟩ := exists_run_treeOf hread (.cons hd .nil) hwritten
  obtain ⟨file, configs, ds, hfile, hselects, hds, -, -, hsurvive, -⟩ :=
    generated_survive_iff hrun hdone rfl rfl
  obtain rfl : file = ⟨defaultManifestPath, twinText "Left", ⟨[twin "Left"]⟩⟩ :=
    Except.ok.inj (hfile.symm.trans (ofContent_treeOf hread))
  cases hselects with
  | all =>
    cases hds with
    | cons hd' hrest =>
      cases hrest
      obtain rfl := hd'.unique hd
      have hone : ∀ a ∈ allArtifacts [twinDelivery "Left" content],
          a = ⟨.csharp, "a.cs", content⟩ := by
        simp [allArtifacts, twinDelivery]
      refine ⟨o, _, hrun, hdone, content, hcontent, hsurvive.2 ?_ ⟨.csharp, "a.cs", content⟩ ?_⟩
      · intro a ha b hb _
        rw [hone a ha, hone b hb]
      · simp [allArtifacts, twinDelivery]

set_option maxRecDepth 4000 in
/-- Two groups of a valid manifest are written to one file: the run tells of two files, and the
artifact of the first group is lost. -/
theorem artifact_lost_twins :
    let text := twinText "Left" ++ twinText "Right"
    let w : Workspace (StateM Tree) := .ofTree (fun _ => none) fun _ => shopServer []
    ∃ o t', (runGenerate w writing).run (treeOf text) = (o, t') ∧ o.ending = .done ∧
      Manifest.read text defaultManifestPath = .ok ⟨[twin "Left", twin "Right"]⟩ ∧
      o.output = ["Left (0 methods)", "  + a.cs [csharp]", "Right (0 methods)",
        "  + a.cs [csharp]", "", "✓ Generated 2 files"] ∧
      ∃ first second, first ≠ second ∧
        List.Forall₂ (DeliveryOf ⟨fun _ => none, w.remote⟩ "") [twin "Left", twin "Right"]
          [twinDelivery "Left" first, twinDelivery "Right" second] ∧
        t'.listing = [("a.cs", some second), (defaultManifestPath, some text)] := by
  intro text w
  have hread : Manifest.read text defaultManifestPath = .ok ⟨[twin "Left", twin "Right"]⟩ :=
    Manifest.read_of_decoded (by decide +kernel) rfl _
  have hdiffer : (CSharp.render ⟨"Acme", "Left", []⟩).toOption ≠
      (CSharp.render ⟨"Acme", "Right", []⟩).toOption := by
    decide +kernel
  obtain ⟨first, hfirst⟩ : ∃ content, CSharp.render ⟨"Acme", "Left", []⟩ = .ok content := ⟨_, rfl⟩
  obtain ⟨second, hsecond⟩ : ∃ content, CSharp.render ⟨"Acme", "Right", []⟩ = .ok content :=
    ⟨_, rfl⟩
  have hleft : DeliveryOf ⟨fun _ => none, w.remote⟩ "" (twin "Left") (twinDelivery "Left" first) :=
    deliveryOf_twin rfl hfirst
  have hright : DeliveryOf ⟨fun _ => none, w.remote⟩ "" (twin "Right")
      (twinDelivery "Right" second) := deliveryOf_twin rfl hsecond
  have hwritten : (writeArtifacts w
      (allArtifacts [twinDelivery "Left" first, twinDelivery "Right" second])).run (treeOf text) =
      (none, treeWith text second) :=
    (writeArtifacts_cons_run (write_treeOf _ _) _).trans
      (writeArtifacts_cons_run (write_treeWith _ _ _) [])
  obtain ⟨o, hrun, hdone, houtput⟩ :=
    exists_run_treeOf hread (.cons hleft (.cons hright .nil)) hwritten
  refine ⟨o, _, hrun, hdone, hread, ?_, first, second, ?_, .cons hleft (.cons hright .nil), rfl⟩
  · rw [houtput]
    simp only [summary, twinDelivery, allArtifacts, Backend.name, List.flatMap_cons,
      List.flatMap_nil, List.map_cons, List.map_nil, List.cons_append, List.nil_append,
      List.append_nil, List.length_cons, List.length_nil]
    decide +kernel
  · rintro rfl
    exact hdiffer (by rw [hfirst, hsecond])

end Sprocket.Command
