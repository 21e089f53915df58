import Mathlib.Data.List.Forall2
import Sprocket.Manifest.Decode
import Sprocket.Proofs.Marks
import Sprocket.Proofs.Trace

/-!
# Decoded manifests

A manifest that is decoded from the entries of a document has the names that stand there: its groups
are those of the tables under `contexts`, in order, and their procedures those of the tables under
`procedures`.

* `Shape.Keeps`: a field of a structure is decoded from the value of its key;
* `Shape.ofEntries_eq_ok`: what a structure that is decoded says of its entries;
* `elements_of_list`: a list of structures is decoded from the tables of an array;
* `groupsOf_of_ofEntries`: the names of a manifest.
-/

namespace Sprocket

open Toml Toml.Entries

namespace Decode

theorem bind_eq_ok {ε α β : Type} {x : Except ε α} {f : α → Except ε β} {b : β}
    (h : (x >>= f) = .ok b) : ∃ a, x = .ok a ∧ f a = .ok b := by
  cases x with
  | error e => cases h
  | ok a => exact ⟨a, rfl, h⟩

/-- What is decoded and then put into a field is found there. -/
theorem exists_of_bind {β δ : Type} {x : Result β} {assign : β → δ} {get : δ → Option β}
    {draft : δ} (h : (x >>= fun b => .ok (assign b)) = .ok draft)
    (hget : ∀ b, get (assign b) = some b) : ∃ b, x = .ok b ∧ get draft = some b := by
  obtain ⟨b, hb, heq⟩ := bind_eq_ok h
  obtain rfl := Except.ok.inj heq
  exact ⟨b, hb, hget b⟩

/-- What is decoded and then put into one field leaves another field alone. -/
theorem get_of_bind {β γ δ : Type} {x : Result γ} {assign : γ → δ} {get : δ → β} {draft : δ}
    {kept : β} (h : (x >>= fun c => .ok (assign c)) = .ok draft)
    (hget : ∀ c, get (assign c) = kept) : get draft = kept := by
  obtain ⟨c, -, heq⟩ := bind_eq_ok h
  obtain rfl := Except.ok.inj heq
  exact hget c

theorem refuse_ne_ok {α : Type} (v : Value) (expected : String) (a : α) :
    refuse v expected ≠ .ok a := by
  unfold refuse
  split
  case h_2 => split <;> simp
  case h_3 => split <;> simp
  all_goals simp

theorem string_eq_ok {v : Value} {text : String} (h : string v = .ok text) : v = .string text := by
  unfold string Decode.text at h
  split at h
  · rw [Except.ok.inj h]
  · exact absurd h (refuse_ne_ok _ _ _)

/-! ### Entries in order -/

theorem mem_insertEntry {d e : String × Value} {es : Entries} :
    d ∈ insertEntry e es ↔ d = e ∨ d ∈ es := by
  induction es with
  | nil => simp [insertEntry]
  | cons first rest ih =>
    unfold insertEntry
    split
    · simp
    · simp only [List.mem_cons, ih]
      exact or_left_comm

/-- Putting entries in order leaves them what they are. -/
theorem mem_sorted {d : String × Value} {es : Entries} : d ∈ sorted es ↔ d ∈ es := by
  have hfold : ∀ acc : Entries,
      d ∈ es.foldl (fun acc e => insertEntry e acc) acc ↔ d ∈ acc ∨ d ∈ es := by
    induction es with
    | nil => simp
    | cons e es ih =>
      intro acc
      rw [List.foldl_cons, ih, mem_insertEntry, List.mem_cons]
      tauto
  have hempty := hfold []
  rwa [List.mem_nil_iff, false_or] at hempty

/-! ### Structures -/

namespace Shape

variable {δ α β : Type} {s : Shape δ α} {key : String} {get : δ → Option β}
  {item : Value → Result β}

/-- A field of a structure is decoded from the value of its key, and from no other. -/
structure Keeps (s : Shape δ α) (key : String) (get : δ → Option β) (item : Value → Result β) :
    Prop where
  put : ∀ {draft v draft'}, s.put draft key v = .ok draft' →
    ∃ b, item v = .ok b ∧ get draft' = some b
  others : ∀ {draft key' v draft'}, key' ∈ s.fields → key' ≠ key →
    s.put draft key' v = .ok draft' → get draft' = get draft

/-- A field is as it was before, or decoded from an entry. -/
theorem putAll_eq_ok (hkeeps : s.Keeps key get item) {es : Entries} {draft draft' : δ}
    (h : s.putAll draft es = .ok draft') :
    ((∀ v, (key, v) ∉ es) ∧ get draft' = get draft) ∨
      ∃ v b, (key, v) ∈ es ∧ item v = .ok b ∧ get draft' = some b := by
  induction es generalizing draft with
  | nil =>
    obtain rfl := Except.ok.inj h
    exact .inl ⟨by simp, rfl⟩
  | cons e es ih =>
    obtain ⟨key', w⟩ := e
    unfold putAll at h
    split at h
    next hfield =>
      obtain ⟨next, hnext, hrest⟩ := bind_eq_ok h
      rcases ih hrest with ⟨hnone, hsame⟩ | ⟨v, b, hmem, hitem, hget⟩
      · by_cases hkey : key' = key
        · subst hkey
          obtain ⟨b, hitem, hget⟩ := hkeeps.put hnext
          exact .inr ⟨w, b, List.mem_cons_self, hitem, hsame.trans hget⟩
        · refine .inl ⟨fun v hmem => ?_, ?_⟩
          · rcases List.mem_cons.1 hmem with heq | hmem
            · exact hkey (congrArg Prod.fst heq).symm
            · exact hnone v hmem
          · exact hsame.trans (hkeeps.others (List.contains_iff_mem.1 hfield) hkey hnext)
      · exact .inr ⟨v, b, List.mem_cons_of_mem _ hmem, hitem, hget⟩
    · cases h

/-- A structure that is decoded from entries has in a field what is decoded from the value of its
key, if there is one. -/
theorem ofEntries_eq_ok {es : Entries} {a : α} (hes : es.Proper) (h : s.ofEntries es = .ok a) :
    ∃ draft, s.complete draft = .ok a ∧
      ∀ {β : Type} {key : String} {get : δ → Option β} {item : Value → Result β},
        s.Keeps key get item →
          (es.get? key = none ∧ get draft = get s.draft) ∨
            ∃ v b, es.get? key = some v ∧ item v = .ok b ∧ get draft = some b := by
  obtain ⟨draft, hdraft, hcomplete⟩ := bind_eq_ok h
  refine ⟨draft, hcomplete, fun {β key get item} hkeeps => ?_⟩
  rcases putAll_eq_ok hkeeps hdraft with ⟨hnone, hsame⟩ | ⟨v, b, hmem, hitem, hget⟩
  · refine .inl ⟨Option.eq_none_iff_forall_ne_some.2 fun v hv => ?_, hsame⟩
    exact hnone v (mem_sorted.2 ((mem_iff_get? hes).2 hv))
  · exact .inr ⟨v, b, (mem_iff_get? hes).1 (mem_sorted.1 hmem), hitem, hget⟩

/-- Values without tables are no structures. -/
theorem decode_ne_ok_of_flat (hmoment : momentKey ∉ s.fields) {items : List Value}
    (h : Flat (.array false items)) {item : Value} (hitem : item ∈ items) (a : α) :
    s.decode item ≠ .ok a := by
  have hflat := h.2 item hitem
  unfold decode
  split
  · exact hflat.elim
  · exact hflat.elim
  next t =>
    intro heq
    obtain ⟨draft, hdraft, -⟩ := bind_eq_ok heq
    have hput : s.putAll s.draft [(momentKey, .string t)] = .ok draft := hdraft
    rw [putAll, if_neg (by simpa using hmoment)] at hput
    cases hput
  · exact refuse_ne_ok _ _ _

/-- A list of structures is decoded from the tables of an array. -/
theorem elements_of_list (hmoment : momentKey ∉ s.fields) {v : Value} {as : List α}
    (hclean : Clean (some v)) (h : list s.decode v = .ok as) :
    List.Forall₂ (fun es a => s.ofEntries es = .ok a) (elements (some v)) as := by
  unfold list at h
  split at h
  next ofTables items =>
    have hitems := hclean ofTables items rfl
    have hdecoded := mapM_eq_ok_iff.1 h
    cases ofTables with
    | true =>
      rw [if_pos rfl] at hitems
      refine List.forall₂_map_left_iff.2 ?_
      clear h hclean
      induction hdecoded with
      | nil => exact .nil
      | cons hitem _ ih =>
        obtain ⟨⟨kind, es, rfl⟩, hrest⟩ := List.forall_mem_cons.1 hitems
        exact .cons hitem (ih hrest)
    | false =>
      rw [if_neg (by simp)] at hitems
      -- an item would have to be a structure
      cases hdecoded with
      | nil => exact .nil
      | cons hitem _ =>
        exact absurd hitem (decode_ne_ok_of_flat hmoment hitems List.mem_cons_self _)
  · exact absurd h (refuse_ne_ok _ _ _)

end Shape

/-- What is seen of tables is seen of the structures that are decoded from them. -/
theorem listAt_of_list {α β δ : Type} {s : Shape δ α} {key : String} {P : Entries → Prop}
    {es : Entries} {view : Entries → β} {f : α → β} (hes : Tidy key P es)
    (hmoment : momentKey ∉ s.fields) {v : Value} (hv : es.get? key = some v) {as : List α}
    (h : list s.decode v = .ok as)
    (hview : ∀ {sub a}, P sub → s.ofEntries sub = .ok a → view sub = f a) :
    listAt key view es = as.map f := by
  have hclean := hes.clean
  have hall := hes.all
  rw [hv] at hclean hall
  rw [listAt, hv]
  have htables := Shape.elements_of_list hmoment hclean h
  generalize elements (some v) = tables at hall htables
  clear h
  induction htables with
  | nil => rfl
  | cons hfirst _ ih =>
    obtain ⟨hP, hrest⟩ := List.forall_mem_cons.1 hall
    rw [List.map_cons, List.map_cons, hview hP hfirst, ih hrest]

/-! ### The names of a manifest -/

theorem required_eq_ok {α : Type} {name : String} {x : Option α} {a : α}
    (h : required name x = .ok a) : x = some a := by
  cases x with
  | none => cases h
  | some b => rw [Except.ok.inj h]

/-- The text under a key is that of its field. -/
theorem textAt?_of_field {es : Entries} {key : String} {x : Option String}
    (h : (es.get? key = none ∧ x = none) ∨
      ∃ v text, es.get? key = some v ∧ string v = .ok text ∧ x = some text) :
    es.textAt? key = x := by
  rcases h with ⟨hnone, rfl⟩ | ⟨v, text, hsome, htext, rfl⟩
  · rw [textAt?, hnone]
  · rw [textAt?, hsome, string_eq_ok htext]

theorem declaration_keeps_name : declaration.Keeps "name" (·.name) string where
  put := by
    intro draft v draft' h
    exact exists_of_bind h fun _ => rfl
  others := by
    intro draft key v draft' _ hne h
    simp only [declaration, if_neg hne] at h
    repeat' split at h
    all_goals exact get_of_bind h fun _ => rfl

theorem declaration_keeps_method : declaration.Keeps "method" (·.method) string where
  put := by
    intro draft v draft' h
    exact exists_of_bind h fun _ => rfl
  others := by
    intro draft key v draft' _ hne h
    simp only [declaration, if_neg hne] at h
    repeat' split at h
    all_goals exact get_of_bind h fun _ => rfl

theorem context_keeps_name : context.Keeps "name" (·.name) string where
  put := by
    intro draft v draft' h
    exact exists_of_bind h fun _ => rfl
  others := by
    intro draft key v draft' _ hne h
    simp only [context, if_neg hne] at h
    repeat' split at h
    all_goals exact get_of_bind h fun _ => rfl

theorem context_keeps_procedures :
    context.Keeps "procedures" (·.procedures) (list declaration.decode) where
  put := by
    intro draft v draft' h
    exact exists_of_bind h fun _ => rfl
  others := by
    intro draft key v draft' hkey hne h
    simp only [context] at h
    split at h
    · exact get_of_bind h fun _ => rfl
    split at h
    · exact get_of_bind h fun _ => rfl
    split at h
    · exact get_of_bind h fun _ => rfl
    split at h
    · exact get_of_bind h fun _ => rfl
    next hname hnamespace hdatabase houtput =>
      simp [context, hname, hnamespace, hdatabase, houtput, hne] at hkey

theorem manifest_keeps_contexts : manifest.Keeps "contexts" id (list context.decode) where
  put := by
    intro draft v draft' h
    exact exists_of_bind h fun _ => rfl
  others := by
    intro draft key v draft' hkey hne _
    exact absurd (List.mem_singleton.1 hkey) hne

/-- A declaration has the names that stand in its table. -/
theorem procedureOf_of_ofEntries {es : Entries} {d : Declaration} (hes : es.Proper)
    (h : declaration.ofEntries es = .ok d) :
    Sheet.procedureOf es = ⟨some d.name, d.method⟩ := by
  obtain ⟨draft, hcomplete, hfields⟩ := Shape.ofEntries_eq_ok hes h
  obtain ⟨name, hname, heq⟩ := bind_eq_ok hcomplete
  obtain rfl := Except.ok.inj heq
  rw [Sheet.procedureOf, textAt?_of_field (hfields declaration_keeps_name),
    textAt?_of_field (hfields declaration_keeps_method), required_eq_ok hname]

/-- What names a group of a manifest. -/
def names (config : ContextConfig) : Sheet.Group String :=
  ⟨some config.name, config.procedures.map fun d => ⟨some d.name, d.method⟩⟩

/-- A group has the names that stand in its table. -/
theorem groupOf_of_ofEntries {es : Entries} {config : ContextConfig} (hes : Sheet.TidyGroup es)
    (h : context.ofEntries es = .ok config) : Sheet.groupOf es = names config := by
  obtain ⟨draft, hcomplete, hfields⟩ := Shape.ofEntries_eq_ok hes.proper h
  obtain ⟨name, hname, hcomplete⟩ := bind_eq_ok hcomplete
  obtain ⟨namespaceName, -, hcomplete⟩ := bind_eq_ok hcomplete
  obtain ⟨database, -, hcomplete⟩ := bind_eq_ok hcomplete
  obtain ⟨output, -, hcomplete⟩ := bind_eq_ok hcomplete
  obtain ⟨procedures, hprocedures, heq⟩ := bind_eq_ok hcomplete
  obtain rfl := Except.ok.inj heq
  have hlist : listAt "procedures" Sheet.procedureOf es =
      procedures.map fun d => ⟨some d.name, d.method⟩ := by
    rcases hfields context_keeps_procedures with ⟨-, hnone⟩ | ⟨v, decoded, hv, hdecoded, hget⟩
    · rw [required_eq_ok hprocedures] at hnone
      cases hnone
    · obtain rfl : decoded = procedures := by
        rw [required_eq_ok hprocedures] at hget
        exact (Option.some.inj hget).symm
      exact listAt_of_list hes (by decide) hv hdecoded procedureOf_of_ofEntries
  rw [Sheet.groupOf, textAt?_of_field (hfields context_keeps_name), hlist, names,
    required_eq_ok hname]

/-- The groups of a manifest have the names that stand in the document it is decoded from. -/
theorem groupsOf_of_ofEntries {root : Entries} {m : Manifest} (hroot : Sheet.TidyRoot root)
    (h : Manifest.ofEntries root = .ok m) : Sheet.groupsOf root = m.contexts.map names := by
  obtain ⟨draft, hcomplete, hfields⟩ := Shape.ofEntries_eq_ok hroot.proper h
  obtain ⟨contexts, hcontexts, heq⟩ := bind_eq_ok hcomplete
  obtain rfl := Except.ok.inj heq
  rcases hfields manifest_keeps_contexts with ⟨-, hnone⟩ | ⟨v, decoded, hv, hdecoded, hget⟩
  · rw [id, required_eq_ok hcontexts] at hnone
    cases hnone
  · obtain rfl : decoded = contexts := by
      rw [id, required_eq_ok hcontexts] at hget
      exact (Option.some.inj hget).symm
    exact listAt_of_list hroot (by decide) hv hdecoded groupOf_of_ofEntries

end Decode

end Sprocket
