import Fable.Proofs.Reinstalling

namespace Fable

namespace World

open Runs

variable {floats : Bool} {o : ObjectSpec} {os : List ObjectSpec} {s : Store}

theorem opened_of_isJson {t : Table Value} (h : (Value.dict t).IsJson floats) (s : Store) :
    s.opened t = .ok t := by
  cases h with
  | dict hnamed hvalues =>
    exact Store.openedEntries_eq fun e he ↦
      ⟨hnamed.exists_text he, Store.openedBy_of_isJson (hvalues e he) []⟩

theorem ObjectSpec.CopiedTo.eq_of_isJson {es : List (Value × Value)} (h : o.CopiedTo s es)
    (ho : (Value.dict o.properties).IsJson floats) : es = o.properties := by
  obtain ⟨t, n, k, ht, hes⟩ := h
  obtain rfl := Except.ok.inj ((opened_of_isJson ho s).symm.trans ht)
  rw [ho.stamped] at hes
  exact (Value.dict.inj hes).1.symm

theorem kept_of_isJson {t : Table Value} (h : (Value.dict t).IsJson floats) : Kept t :=
  fun s ↦ ⟨t, opened_of_isJson h s, rfl⟩

theorem Stocks.isJson {w : Spec} (h : Stocks w os s)
    (hw : ∀ o ∈ w.objects, (Value.dict o.properties).IsJson floats) :
    ∀ p ∈ os, (Value.dict p.properties).IsJson floats := by
  intro p hp
  rcases h.copied p hp with hnil | ⟨o, ho, t, hcopied⟩
  · rw [hnil]
    exact .dict Table.named_nil (by simp)
  · rw [hcopied.eq_of_isJson (hw o ho)]
    exact hw o ho

theorem ObjectSpec.Canonical.isJson_exported (h : o.Canonical)
    (ho : (Value.dict o.properties).IsJson floats) :
    o.exported.IsJson floats := by
  obtain ⟨n, hn⟩ := h.size
  refine .dict ⟨["id", "parent", "flags", "properties", "desc", "ldesc", "fdesc",
    "synonyms", "adjectives", "size", "action"], by decide, rfl⟩ ?_
  simp only [List.mem_cons, List.not_mem_nil, or_false, forall_eq_or_imp, forall_eq]
  exact ⟨.text _, isJson_optional _, isJson_texts _ _, ho, isJson_optional _,
    isJson_optional _, isJson_optional _, isJson_texts _ _, isJson_texts _ _,
    hn ▸ .int n, isJson_optional _⟩

theorem Holds.isJson_exportedWorld (h : Holds os s)
    (hos : ∀ o ∈ os, (Value.dict o.properties).IsJson floats) :
    (exportedWorld os).IsJson floats := by
  refine .dict ⟨["objects"], List.nodup_singleton _, rfl⟩ fun e he ↦ ?_
  obtain rfl := List.mem_singleton.1 he
  exact .list (List.forall_mem_map.2 fun o ho ↦ (h.canonical o ho).isJson_exported (hos o ho))

/-- In every game that has only the player yet, the value is installed as a world, and what is shown
then is the same up to stamps. -/
def Restored (d : Value) : Prop :=
  ∀ (stamp : Nat) (g : Game), g.store = .ofPlayer (.text "PLAYER") →
    ∃ w v h d', Spec.ofValue stamp d = .ok w ∧ w.install g = .ok v h ∧
      h.store.snapshot = .ok d' ∧ d'.bare = d.bare

theorem Stocks.restored {w : Spec} (hos : Stocks w os s) (hr : s.Reachable)
    (hkept : ∀ o ∈ os, Kept o.properties) : Restored (exportedWorld os) := by
  intro stamp g hg
  obtain ⟨v, h, os', hinstall, hos', hsame⟩ := reinstall hos hr hkept hg
    { title := "Untitled", start := none, globals := [], verbs := [], objects := os } rfl
      rfl rfl rfl
  refine ⟨_, v, h, _, ofValue_exportedWorld hos.canonical stamp, hinstall, hos'.snapshot, ?_⟩
  rw [hos'.bare_exportedWorld, hsame, hos.bare_exportedWorld]

theorem Listed.exists_record {t : Table Record} (h : Listed os t) (ho : o ∈ os) :
    ∃ r ∈ t.entries, r.properties = o.properties := by
  induction h with
  | nil => cases ho
  | @cons p e os es he _ ih =>
    rcases List.mem_cons.1 ho with rfl | ho
    · exact ⟨e.2, List.mem_cons_self, he.2.properties⟩
    · obtain ⟨r, hr, hp⟩ := ih ho
      exact ⟨r, List.mem_cons_of_mem _ hr, hp⟩

/-- A world that can be written as JSON is shown as it was, without any stamps. -/
theorem Stocks.restored_json {w : Spec} (hos : Stocks w os s) (hr : s.Reachable)
    (hjson : ∀ o ∈ os, (Value.dict o.properties).IsJson floats) {g : Game}
    (hg : g.store = .ofPlayer (.text "PLAYER")) :
    ∃ w' v h, check .value (exportedWorld os) = .ok w' ∧
      w'.install g = .ok v h ∧ h.store.snapshot = .ok (exportedWorld os) := by
  obtain ⟨w', v, h, d, hw', hinstall, hd, hbare⟩ :=
    hos.restored hr (fun o ho ↦ kept_of_isJson (hjson o ho)) 0 g hg
  have hobjects : w'.objects = os := by
    rw [ofValue_exportedWorld hos.canonical] at hw'
    rw [← Except.ok.inj hw']
  obtain ⟨ps, hps⟩ := exists_stocks
    (fun o ho ↦ ⟨(hos.canonical o (hobjects ▸ ho)).size,
      (hos.canonical o (hobjects ▸ ho)).properties⟩) hg hinstall
  have hd' : d = exportedWorld ps := Except.ok.inj (hd.symm.trans hps.snapshot)
  have hps' := hps.isJson fun o ho ↦ hjson o (hobjects ▸ ho)
  rw [hd', (hps.isJson_exportedWorld hps').bare_eq, (hos.isJson_exportedWorld hjson).bare_eq]
    at hbare
  exact ⟨w', v, h, hw', hinstall, by rw [hps.snapshot, hbare]⟩

theorem exists_of_load {find : String → Lookup} {path : String} {w : Spec}
    (h : Spec.load find path = .ok w) :
    ∃ x : Value, x.IsJson true ∧ check .value x = .ok w := by
  rw [Spec.load] at h
  split at h
  · cases h
  · split at h
    · cases h
    · split at h
      · cases h
      · exact exists_of_ofText h

theorem ofText_of_isJson {source path : String} {es : List (Value × Value)} {w : Spec}
    (hread : Json.read .file 0 source = .ok (.dict es)) (hes : (Value.dict es).IsJson floats)
    (hw : check .value (.dict es) = .ok w) : Spec.ofText path source = .ok w := by
  rw [Spec.ofText, hread]
  simp only [Json.settled_of_isJson hes, hw]
  rfl

theorem exists_json_export {w : Spec} {g h : Game} {v x : Value} (hx : x.IsJson floats)
    (hw : check .value x = .ok w) (hg : Game.start {} = .ok g) (hinstall : w.install g = .ok v h) :
    ∃ os, Stocks w os h.store ∧ (∀ o ∈ os, (Value.dict o.properties).IsJson floats) := by
  have hobjects := fun o ho ↦ isJson_of_check hx hw (o := o) ho
  obtain ⟨os, hos⟩ :=
    exists_stocks (fun o ho ↦ ⟨(hobjects o ho).1, named_of_check hw ho⟩) (Game.store_start hg).1
    hinstall
  exact ⟨os, hos, hos.isJson fun o ho ↦ (hobjects o ho).2⟩

end World

theorem World.fileText?_of_notMem {text : String} (h : '\r' ∉ text.toList) :
    fileText? text.toUTF8 = some text := by
  rw [fileText?_toUTF8, Text.unifyLineEnds_eq h]

namespace Cli

open World

section

variable {find : String → Lookup} {path : String} {w : Spec} {g h : Game}
  {v d : Value} {level : Level}
  (hload : Spec.load find path = .ok w) (hg : Game.start {} = .ok g)
    (hinstall : w.install g = .ok v h)
  (hd : h.store.snapshot = .ok d)

include hload hg hinstall hd

theorem inspect_json : Cli.inspect path true level find = match Json.pretty 0 d with
    | .ok t => { exit := 0, stderr := h.logText level, closing := t ++ "\n" }
    | .error f => crashed (h.logText level) f := by
  unfold Cli.inspect
  rw [hload]
  simp only [hg, hinstall, inspectStore, hd]
  rfl

theorem exists_of_inspect_json (hexit : (Cli.inspect path true level find).exit = 0) :
    ∃ t, Json.pretty 0 d = .ok t ∧ (Cli.inspect path true level find).stdout = t ++ "\n" := by
  rw [inspect_json hload hg hinstall hd] at hexit ⊢
  cases ht : Json.pretty 0 d with
  | error f =>
    rw [ht] at hexit
    cases hexit
  | ok t => exact ⟨t, rfl, String.empty_append⟩

theorem inspect_json_of_pretty {t : String} (ht : Json.pretty 0 d = .ok t) (level : Level) :
    (Cli.inspect path true level find).exit = 0 ∧
    (Cli.inspect path true level find).stdout = t ++ "\n" := by
  rw [inspect_json hload hg hinstall hd, ht]
  exact ⟨rfl, String.empty_append⟩

end

/-- What is shown of all objects defines a world that can be installed again, and then the same is
shown of it. If the world came from a file, what was shown is itself the text of such a file. -/
theorem exported_world_restored {w : Spec} {g h : Game} {v : Value} (hg : Game.start {} = .ok g)
    (hinstall : w.install g = .ok v h) :
    (∀ stamp x, Spec.ofValue stamp x = .ok w → (∀ o ∈ w.objects, ∃ n, o.size = .int n) →
      (∀ r ∈ h.store.records.entries, Kept r.properties) →
      ∃ d, h.store.snapshot = .ok d ∧ Restored d) ∧
    ∀ find path, Spec.load find path = .ok w → ∃ d, h.store.snapshot = .ok d ∧ Restored d ∧
      ∀ level, (Cli.inspect path true level find).exit = 0 →
        (d.IsJson false → Json.read .file 0 (Cli.inspect path true level find).stdout = .ok d) ∧
        (Json.read .file 0 (Cli.inspect path true level find).stdout = .ok d →
          ∀ find' path' bytes, World.isPath (World.tidyPath path') →
            find' (World.tidyPath path') = .ok bytes →
            World.fileText? bytes = some (Cli.inspect path true level find).stdout →
            ∀ level', (Cli.inspect path' true level' find').exit = 0 ∧
              (Cli.inspect path' true level' find').stdout =
              (Cli.inspect path true level find).stdout) := by
  have hr := reachable_of_install rfl hg hinstall
  have hstore := (Game.store_start hg).1
  constructor
  · intro stamp x hx hsizes hkept
    have hnamed : ∀ o ∈ w.objects, o.properties.Named := by
      intro o ho
      rw [Spec.ofValue] at hx
      split at hx
      · split at hx
        · exact named_of_check hx ho
        · cases hx
      · exact named_of_check hx ho
    obtain ⟨os, hos⟩ := exists_stocks (fun o ho ↦ ⟨hsizes o ho, hnamed o ho⟩) hstore hinstall
    refine ⟨_, hos.snapshot, hos.restored hr fun o ho ↦ ?_⟩
    obtain ⟨r, hmem, hproperties⟩ := hos.listed.exists_record ho
    exact hproperties ▸ hkept r hmem
  · intro find path hload
    obtain ⟨x, hx, hw⟩ := exists_of_load hload
    obtain ⟨os, hos, hjson⟩ := exists_json_export hx hw hg hinstall
    refine ⟨_, hos.snapshot, hos.restored hr fun o ho ↦ kept_of_isJson (hjson o ho), ?_⟩
    intro level hexit
    obtain ⟨t, ht, hstdout⟩ := exists_of_inspect_json hload hg hinstall hos.snapshot hexit
    constructor
    · intro hplain
      rw [hstdout]
      exact Json.read_pretty hplain ht
    · intro hread find' path' bytes hpath hfile htext level'
      obtain ⟨w', v', h', hw', hinstall', hsnapshot⟩ := hos.restored_json hr hjson hstore
      have hload' : Spec.load find' path' = .ok w' := by
        rw [load_of_file hpath hfile htext]
        exact ofText_of_isJson hread (hos.isJson_exportedWorld hjson) hw'
      rw [hstdout]
      exact inspect_json_of_pretty hload' hg hinstall' hsnapshot ht level'

def cryptLines : List String :=
  ["\x7b\"objects\": [\x7b\"id\": \"PLAYER\",", "\"flags\": [\"C\"]\x7d,",
    "\x7b\"id\": \"PLAYER\",", "\"parent\": \"CRYPT\",", "\"flags\": [\"B\", \"A\"],",
    "\"size\": \"3\"\x7d]\x7d"]

def cryptText : String := String.ofList (cryptLines.flatMap String.toList)

theorem crypt_export_inspects_to_itself :
    ∃ w g v h d, Spec.load (oneFile cryptText) "w" = .ok w ∧
      Game.start {} = .ok g ∧ w.install g = .ok v h ∧
      h.store.snapshot = .ok d ∧ Restored d ∧
      ∃ t, (Cli.inspect "w" true .warning (oneFile cryptText)).stdout = t ∧
        (Cli.inspect "w" true .warning (oneFile t)).exit = 0 ∧
        (Cli.inspect "w" true .warning (oneFile t)).stdout = t := by
  have hload := load_oneFile cryptText (World.fileText?_of_notMem (by
    rw [cryptText, String.toList_ofList]
    decide +kernel))
  have hshown : (Cli.inspect "w" true .warning (oneFile cryptText)).exit = 0 ∧
      (match World.Spec.ofText "w" cryptText with
        | .ok w => w.objects.all (·.properties.isEmpty)
        | .error _ => false) = true := by
    unfold Cli.inspect
    rw [hload]
    unfold World.Spec.ofText Json.read Json.readAll
    rw [cryptText, String.toList_ofList]
    decide +kernel
  obtain ⟨w, g, v, h, hw, hg, hinstall⟩ := exists_of_inspect hshown.1
  obtain ⟨x, hx, hcheck⟩ := exists_of_load hw
  obtain ⟨os, hos, -⟩ := exists_json_export hx hcheck hg hinstall
  have hbare : ∀ o ∈ w.objects, (Value.dict o.properties).IsJson false := by
    intro o ho
    rw [← hload, hw] at hshown
    have hnil : o.properties = [] := List.isEmpty_iff.1 (List.all_eq_true.1 hshown.2 o ho)
    rw [hnil]
    exact .dict Table.named_nil (by simp)
  have hplain := hos.isJson_exportedWorld (hos.isJson hbare)
  obtain ⟨d, hd, hrestored, hinspect⟩ := (exported_world_restored hg hinstall).2 _ _ hw
  obtain rfl : d = exportedWorld os := Except.ok.inj (hd.symm.trans hos.snapshot)
  obtain ⟨t, ht, hstdout⟩ := exists_of_inspect_json hw hg hinstall hd hshown.1
  obtain ⟨hread, hagain⟩ := hinspect .warning hshown.1
  rw [hstdout] at hread hagain
  refine ⟨w, g, v, h, _, hw, hg, hinstall, hd, hrestored, t ++ "\n", hstdout, ?_⟩
  exact hagain (hread hplain) (oneFile (t ++ "\n")) "w" _ isPath_w rfl
    (World.fileText?_of_notMem (Json.notMem_pretty hplain ht)) .warning

def oddSize : Value :=
  .dict [(.text "objects",
    .list [.dict [(.text "id", .text "A"), (.text "size", .directive .newline)]])]

def oddSizeLost : Bool :=
  match Spec.ofValue 0 oddSize, Game.start {} with
  | .ok w, .ok g => match w.install g with
    | .ok _ h => match h.store.snapshot with
      | .ok d => d.string?.isNone && (check .value d).toOption.isNone &&
        h.store.records.entries.all (·.properties.isEmpty)
      | .error _ => false
    | .error _ _ => false
  | _, _ => false

/-- The letters of the mark are shown as the size, and no world has letters there. -/
theorem odd_size_not_restored :
    ∃ w g v h d, Spec.ofValue 0 oddSize = .ok w ∧ Game.start {} = .ok g ∧ w.install g = .ok v h ∧
      h.store.snapshot = .ok d ∧ (∀ r ∈ h.store.records.entries, r.properties = []) ∧
      ∀ stamp w', Spec.ofValue stamp d ≠ .ok w' := by
  have hrun : oddSizeLost = true := by decide +kernel
  unfold oddSizeLost at hrun
  split at hrun
  · next w g hw hg =>
    split at hrun
    · next v h hinstall =>
      split at hrun
      · next d hd =>
        simp only [Bool.and_eq_true, Option.isNone_iff_eq_none, List.all_eq_true, List.isEmpty_iff]
          at hrun
        obtain ⟨⟨htext, hcheck⟩, hproperties⟩ := hrun
        refine ⟨w, g, v, h, d, hw, hg, hinstall, hd, hproperties, fun stamp w' hw' ↦ ?_⟩
        rw [Spec.ofValue, htext] at hw'
        rw [show check .value d = .ok w' from hw'] at hcheck
        cases hcheck
      · cases hrun
    · cases hrun
  · cases hrun

end Cli

end Fable
