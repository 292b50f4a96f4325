import Fable.Proofs.Agreement

namespace Fable

namespace World

open Json (Written filed filedEntries merged settled)
open Checked (Agree)
open scoped Relator

def ObjectSpec.merged (o : ObjectSpec) : ObjectSpec :=
  { o with properties := mergedTable o.properties }

def Spec.merged (w : Spec) : Spec :=
  { w with globals := mergedTable w.globals, objects := w.objects.map ObjectSpec.merged }

theorem agrees_texts : Agrees Eq (checkList .json checkText) (checkList .value checkText) := by
  intro v hv path path'
  refine (agrees_checkList agrees_checkText .json .value v hv path path').mono fun a b h ↦ ?_
  rwa [List.forall₂_eq_eq_eq] at h

theorem agrees_checkObject : Agrees (fun o p ↦ o.merged = p) (checkObject .json)
    (checkObject .value) := by
  intro v hv path path'
  cases hv with
  | @dict es hkeys hes =>
    rw [Json.filed_dict]
    have hid := agree_fieldRequired hkeys "id" (agrees_checkText.of_given? hes) path path'
    have hoptional (name : String) := agree_fieldOr hkeys name (a := (none : Option String)) rfl
      (agrees_checkOptional.of_given? hes) path path'
    have htexts (name : String) := agree_fieldOr hkeys name (a := ([] : List String)) rfl
      (agrees_texts.of_given? hes) path path'
    have hsize :=
      agree_fieldOr hkeys "size" (a := Value.int 0) rfl (agrees_checkWhole.of_given? hes) path path'
    have hproperties :=
      agree_fieldOr (R := fun t u ↦ mergedTable t = u) hkeys "properties" (a := []) rfl
      (agrees_checkTable.of_given? hes) path path'
    have hmk : (Eq ⇒ Eq ⇒ Eq ⇒ Eq ⇒ Eq ⇒ Eq ⇒ Eq ⇒ Eq ⇒ Eq ⇒ Eq ⇒ (fun t u ↦ mergedTable t = u) ⇒
        fun o p ↦ o.merged = p) ObjectSpec.mk ObjectSpec.mk := by
      rintro _ _ rfl _ _ rfl _ _ rfl _ _ rfl _ _ rfl _ _ rfl _ _ rfl _ _ rfl _ _ rfl _ _ rfl _ _ rfl
      rfl
    exact ((((((((((hid.map hmk).apply (hoptional "parent")).apply (hoptional "desc")).apply
      (hoptional "ldesc")).apply (hoptional "fdesc")).apply (htexts "synonyms")).apply
        (htexts "adjectives")).apply
      (htexts "flags")).apply hsize).apply (hoptional "action")).apply hproperties
  | list _ => rw [Json.filed_list]; exact .error _ _
  | _ => exact .error _ _

def RepeatsTexts (vs : List (Value × Value)) : Prop :=
  ∀ e ∈ vs, (∃ s, e.2 = .text s) ∨ Table.find? vs.reverse e.1 = some e.2

theorem exists_of_checkTable {form : Form} {check : Check α} {path : List Step}
    {es : List (Value × Value)} {k : Nat} {t : Table α}
    (h : checkTable form check path (.dict es k) = .ok t) {e : Value × Value} (he : e ∈ es) :
    ∃ path a, check path e.2 = .ok a := by
  obtain ⟨xs, hxs, -⟩ := exists_of_map_ok h
  obtain ⟨x, hx⟩ := Checked.exists_of_all hxs (List.mem_map_of_mem he)
  obtain ⟨-, a, -, ha, -⟩ := Checked.both_eq_ok hx
  exact ⟨_, a, ha⟩

theorem checkText_eq_ok {v : Value} (hv : Written v) {path : List Step} {s : String}
    (h : checkText path v = .ok s) :
    v = .text s := by
  cases hv with
  | text t => rw [Except.ok.inj h]
  | _ => cases h

def textOf (v : Value) : String := (text? v).getD ""

theorem checkTable_texts (form : Form) {es : List (Value × Value)}
    (hkeys : ∀ e ∈ es, ∃ x, e.1 = .text x) (hes : ∀ e ∈ es, ∃ s, e.2 = .text s)
    (path : List Step) (k : Nat) :
    checkTable form checkText path (.dict es k) =
      .ok (Table.ofEntries (es.map fun e ↦ (e.1, textOf e.2))) := by
  refine checkTable_eq_ok form checkText textOf hkeys (fun e he path ↦ ?_) path k
  obtain ⟨s, hs⟩ := hes e he
  rw [hs]
  rfl

section
variable {vs : List (Value × Value)} (hkeys : ∀ e ∈ vs, ∃ x, e.1 = .text x)

include hkeys

theorem agree_of_texts (hall : ∀ e ∈ vs, ∃ s, e.2 = .text s) (path path' : List Step) :
    Agree Eq (checkTable .json checkText path (.dict vs))
      (checkTable .value checkText path' (.dict (filedEntries vs))) := by
  have hfiled : ∀ e ∈ vs.map fun e ↦ (e.1, filed e.2), ∃ s, e.2 = .text s := by
    refine List.forall_mem_map.2 fun e he ↦ ?_
    obtain ⟨s, hs⟩ := hall e he
    exact ⟨s, by rw [hs]; rfl⟩
  have hsame : vs.map ((fun e ↦ (e.1, textOf e.2)) ∘ fun e ↦ (e.1, filed e.2)) =
      vs.map fun e ↦ (e.1, textOf e.2) := by
    refine List.map_congr_left fun e he ↦ ?_
    obtain ⟨s, hs⟩ := hall e he
    simp only [Function.comp_apply, hs]
    rfl
  have hnamed : (Table.ofEntries (vs.map fun e ↦ (e.1, textOf e.2))).Named :=
    Table.named_ofEntries (List.forall_mem_map.2 hkeys)
  have hvalues : ∀ e ∈ filedEntries vs, ∃ s, e.2 = .text s :=
    Json.of_mem_ofEntries (P := fun v ↦ ∃ s, v = .text s) hfiled
  rw [checkTable_texts .json hkeys hall, checkTable_texts .value
    (fun e he ↦ (named_filedEntries hkeys).exists_text he) hvalues, filedEntries,
    Table.map_ofEntries, List.map_map, hsame, hnamed.ofEntries_eq]
  exact .ok rfl

/-- A table of verbs in a file passes its check if the table in the text does, and the other way
round, because what is written over would have passed. -/
theorem agree_verbs (hvs : ∀ e ∈ vs, Written e.2) (h : RepeatsTexts vs) (path path' : List Step) :
    Agree Eq (checkTable .json checkText path (.dict vs))
      (checkTable .value checkText path' (.dict (filedEntries vs))) := by
  by_cases hall : ∀ e ∈ vs, ∃ s, e.2 = .text s
  · exact agree_of_texts hkeys hall path path'
  push Not at hall
  obtain ⟨e, he, hne⟩ := hall
  have hlast : Table.find? vs.reverse e.1 = some e.2 := (h e he).resolve_left fun ⟨s, hs⟩ ↦ hne s hs
  have hmap : ∀ e ∈ vs.map fun e ↦ (e.1, filed e.2), ∃ x, e.1 = .text x :=
    List.forall_mem_map.2 hkeys
  have hfind : Table.find? (filedEntries vs) e.1 = some (filed e.2) := by
    rw [filedEntries, Table.find?_ofEntries hmap, ← List.map_reverse, Table.find?_map, hlast]
    rfl
  obtain ⟨f, hf, hfe⟩ := Option.map_eq_some_iff.1 hfind
  have hjson (t : Table String) : checkTable .json checkText path (.dict vs) ≠ .ok t := by
    intro ht
    obtain ⟨q, s, hs⟩ := exists_of_checkTable ht he
    exact hne s (checkText_eq_ok (hvs e he) hs)
  have hvalue (t : Table String) : checkTable .value checkText path' (.dict (filedEntries vs)) ≠
      .ok t := by
    intro ht
    obtain ⟨q, s, hs⟩ := exists_of_checkTable ht (List.mem_of_find?_eq_some hf)
    rw [hfe] at hs
    have hagree := agrees_checkText e.2 (hvs e he) [] q
    rw [hs] at hagree
    generalize hx : checkText [] e.2 = x at hagree
    cases hagree with
    | ok h => exact hne _ (checkText_eq_ok (hvs e he) hx)
  exact .of_ne_ok hjson hvalue

end

def VerbsRepeatTexts (v : Value) : Prop :=
  ∀ es k vs l, v = .dict es k → given? es "verbs" = some (.dict vs l) → RepeatsTexts vs

theorem agree_checkWorld {v : Value} (hv : Written v) (hverbs : VerbsRepeatTexts v) :
    Agree (fun w x ↦ w.merged = x) (checkWorld .json [] v) (checkWorld .value [] (filed v)) := by
  cases hv with
  | @dict es hkeys hes =>
    rw [Json.filed_dict]
    have htable (u : Value) (hu : given? es "verbs" = some u) (path path' : List Step) :
        Agree Eq (checkTable .json checkText path u)
          (checkTable .value checkText path' (filed u)) := by
      obtain ⟨e, he, rfl⟩ := exists_mem_of_given? hu
      have hwritten := hes e he
      cases hu' : e.2 with
      | dict vs l =>
        rw [hu'] at hu hwritten
        cases hwritten with
        | dict hvkeys hvs =>
          rw [Json.filed_dict]
          exact agree_verbs hvkeys hvs (hverbs es 0 vs 0 rfl hu) path path'
      | list xs l => rw [Json.filed_list]; exact .error _ _
      | _ => exact .error _ _
    have htitle :=
      agree_fieldOr hkeys "title" (a := "Untitled") rfl (agrees_checkText.of_given? hes) [] []
    have hstart := agree_fieldOr hkeys "start" (a := (none : Option String)) rfl
      (agrees_checkOptional.of_given? hes) [] []
    have hglobals := agree_fieldOr (R := fun t u ↦ mergedTable t = u) hkeys "globals" (a := []) rfl
      (agrees_checkTable.of_given? hes) [] []
    have hverbs' := agree_fieldOr hkeys "verbs" (a := ([] : Table String)) rfl htable [] []
    have hobjects := agree_fieldOr hkeys "objects" (a := ([] : List ObjectSpec)) .nil
      ((agrees_checkList agrees_checkObject .json .value).of_given? hes) [] []
    have hmk :
        (Eq ⇒ Eq ⇒ (fun t u ↦ mergedTable t = u) ⇒ Eq ⇒ List.Forall₂ (fun o p ↦ o.merged = p) ⇒
        fun w x ↦ w.merged = x) Spec.mk Spec.mk := by
      rintro _ _ rfl _ _ rfl _ _ rfl _ _ rfl os ps hos
      have hmap : os.map ObjectSpec.merged = ps := by
        rwa [← List.forall₂_eq_eq_eq, List.forall₂_map_left_iff]
      rw [← hmap]
      rfl
    exact ((((htitle.map hmk).apply hstart).apply hglobals).apply hverbs').apply hobjects
  | list _ => rw [Json.filed_list]; exact .error _ _
  | _ => exact .error _ _

/-- What is written over is checked where the text is given, and not in a file. -/
example :
    let v : Value :=
      .dict [(.text "verbs", .dict [(.text "WAVE", .int 1), (.text "WAVE", .text "V-WAVE")])]
    (check .json v).toOption.isNone ∧ (check .value (filed v)).toOption.isSome := by
  decide +kernel

/-- If half of a pair that stands alone or a number of too many digits is refused when the text is
given, then it is refused in a file, and what is written over in the table of verbs is text. -/
structure ReadAlike (stamp : Nat) (source : String) : Prop where
  refused : ∀ c m, Json.read .given stamp source = .error ⟨c, m⟩ →
    c = .unicodeEscape ∨ c = .digits →
    ∃ t, Json.read .file 0 source = .error t
  verbs : ∀ u, Json.read .given stamp source = .ok u → VerbsRepeatTexts u

theorem ofValue_of_read {source : String} {stamp : Nat} {v : Value}
    (h : Json.read .given stamp source = .ok v) :
    Spec.ofValue stamp (.text source) = (checkWorld .json [] v).mapError .invalid := by
  simp only [Spec.ofValue, Value.string?, h]
  rfl

theorem ofValue_of_refused {source : String} {stamp : Nat} {t : Json.Trouble}
    (h : Json.read .given stamp source = .error t) :
    Spec.ofValue stamp (.text source) = .error (.invalid [⟨[], .json⟩]) := by
  simp only [Spec.ofValue, Value.string?, h]

theorem load_eq_ofText {find : String → Lookup} {path source : String}
    (hpath : isPath (tidyPath path)) (hfile : find (tidyPath path) = .ok source.toUTF8) :
    Spec.load find path = Spec.ofText (tidyPath path) (Text.unifyLineEnds source) :=
  Cli.load_of_file hpath hfile (fileText?_toUTF8 source)

theorem ofText_of_read (path : String) {source : String} {v : Value}
    (h : Json.read .file 0 source = .ok (merged v)) :
    (∃ w, checkWorld .value [] (filed v) = .ok w ∧ Spec.ofText path source = .ok w) ∨
      (∃ es, checkWorld .value [] (filed v) = .error es) ∧ ∃ p,
      Spec.ofText path source = .error (.world p) := by
  rw [Spec.ofText, h]
  cases v with
  | dict es k =>
    have hcheck : check .value (settled (merged (.dict es k))) =
        (checkWorld .value [] (filed (.dict es k))).mapError .invalid := rfl
    rw [Json.merged_dict] at hcheck ⊢
    dsimp only
    rw [hcheck]
    cases checkWorld .value [] (filed (.dict es k)) with
    | ok w => exact .inl ⟨w, rfl, rfl⟩
    | error es => exact .inr ⟨⟨es, rfl⟩, _, rfl⟩
  | list xs k =>
    rw [Json.filed_list]
    exact .inr ⟨⟨_, rfl⟩, _, rfl⟩
  | _ => exact .inr ⟨⟨_, rfl⟩, _, rfl⟩

/-- What is refused when it is given defines no world in a file. -/
theorem ofText_of_refused {source : String} {stamp : Nat} {t : Json.Trouble}
    (halike : ReadAlike stamp source)
    (hdigits : ∀ m, Json.read .file 0 source ≠ .error ⟨.digits, m⟩)
    (hread : Json.read .given stamp source = .error t) (path : String) :
    ∃ p, Spec.ofText path (Text.unifyLineEnds source) = .error (.world p) := by
  obtain ⟨c, n, hc, hn⟩ : ∃ c n, c ≠ .digits ∧
      Json.read .file 0 (Text.unifyLineEnds source) = .error ⟨c, n⟩ := by
    by_cases hc : t.complaint = .unicodeEscape ∨ t.complaint = .digits
    · obtain ⟨t', ht'⟩ := halike.refused _ _ hread hc
      rcases Json.read_file_unifyLineEnds source with ⟨v, hv, -⟩ | ⟨c, m, n, hm, hn⟩
      · cases ht'.symm.trans hv
      · exact ⟨c, n, fun h ↦ hdigits m (h ▸ hm), hn⟩
    · obtain ⟨n, hn⟩ := (Json.read_file_of_refused hread).resolve_left hc
      exact ⟨_, n, fun h ↦ hc (.inr h), hn⟩
  rw [Spec.ofText, hn]
  cases c with
  | digits => exact absurd rfl hc
  | _ => exact ⟨_, rfl⟩

/-- Both ways of reading a text come to the same. -/
theorem ofValue_and_ofText {source : String} {stamp : Nat} (halike : ReadAlike stamp source)
    (hdigits : ∀ m, Json.read .file 0 source ≠ .error ⟨.digits, m⟩) (path : String) :
    (∃ u, Spec.ofValue stamp (.text source) = .ok u ∧
        Spec.ofText path (Text.unifyLineEnds source) = .ok u.merged) ∨
      (∃ p, Spec.ofValue stamp (.text source) = .error p) ∧
        ∃ p, Spec.ofText path (Text.unifyLineEnds source) = .error (.world p) := by
  cases hread : Json.read .given stamp source with
  | ok v =>
    rw [ofValue_of_read hread]
    obtain ⟨hwritten, hfile⟩ := Json.read_file_of_given hread
    have hagree := agree_checkWorld hwritten (halike.verbs v hread)
    have htext := ofText_of_read path hfile
    generalize checkWorld .json [] v = x at hagree ⊢
    generalize checkWorld .value [] (filed v) = y at hagree htext
    cases hagree with
    | ok hw =>
      rcases htext with ⟨w, hw', htext⟩ | ⟨⟨es, hes⟩, -⟩
      · cases hw'
        exact .inl ⟨_, rfl, hw ▸ htext⟩
      · cases hes
    | error es es' =>
      rcases htext with ⟨w, hw, -⟩ | ⟨-, htext⟩
      · cases hw
      · exact .inr ⟨⟨_, rfl⟩, htext⟩
  | error t =>
    exact .inr ⟨⟨_, ofValue_of_refused hread⟩, ofText_of_refused halike hdigits hread path⟩

theorem file_defines_what_text_defines (find : String → Lookup) (path source : String) (stamp : Nat)
    (hpath : isPath (tidyPath path)) (hfile : find (tidyPath path) = .ok source.toUTF8)
    (halike : ReadAlike stamp source)
    (hdigits : ∀ m, Json.read .file 0 source ≠ .error ⟨.digits, m⟩) :
    (∀ w, Spec.load find path = .ok w ↔
      ∃ u, Spec.ofValue stamp (.text source) = .ok u ∧ u.merged = w) ∧
      ∀ f, Spec.load find path = .error f →
        (∃ p, f = .world p) ∧ ∃ p, Spec.ofValue stamp (.text source) = .error p := by
  rw [load_eq_ofText hpath hfile]
  rcases ofValue_and_ofText halike hdigits (tidyPath path) with ⟨u, hu, hload⟩ | ⟨⟨p, hp⟩, q, hload⟩
  · rw [hu, hload]
    refine ⟨fun w ↦ ⟨?_, ?_⟩, nofun⟩
    · rintro h
      exact ⟨u, rfl, Except.ok.inj h⟩
    · rintro ⟨u', hu', rfl⟩
      rw [Except.ok.inj hu']
  · rw [hp, hload]
    refine ⟨fun w ↦ ⟨nofun, nofun⟩, ?_⟩
    rintro f h
    cases h
    exact ⟨⟨q, rfl⟩, p, rfl⟩

def verbsAreTexts (v : Value) : Bool :=
  match v with
  | .dict es _ => match given? es "verbs" with
    | some (.dict vs _) => vs.all fun e ↦ match e.2 with
      | .text _ => true
      | _ => false
    | _ => true
  | _ => true

theorem verbsRepeatTexts_of_verbsAreTexts {v : Value} (h : verbsAreTexts v = true) :
    VerbsRepeatTexts v := by
  rintro es k vs l rfl hvs e he
  simp only [verbsAreTexts, hvs, List.all_eq_true] at h
  have htext := h e he
  split at htext
  · next s hs => exact .inl ⟨s, hs⟩
  · cases htext

def yardText : String :=
  "\x7b\r\n\"title\":\"Yard\",\r\"verbs\":\x7b\"WAVE\":\"V-A\",\"WAVE\":\"V-B\"\x7d,\n" ++
    "\"objects\":[\x7b\"id\":\"GATE\"\x7d]\r\n\x7d"

theorem yard_defined_both_ways :
    ReadAlike 1 yardText ∧ (∀ m, Json.read .file 0 yardText ≠ .error ⟨.digits, m⟩) ∧
      ∃ w, Spec.ofValue 1 (.text yardText) = .ok w ∧
        Spec.load (Cli.oneFile yardText) "w" = .ok w.merged ∧
        w.title = "Yard" ∧ w.verbs.length = 1 := by
  have hgiven : (Json.read .given 1 yardText).toOption.any verbsAreTexts = true := by decide +kernel
  have hfile : (Json.read .file 0 yardText).toOption.isSome := by decide +kernel
  have hvalue : (Spec.ofValue 1 (.text yardText)).toOption.any
      (fun w ↦ w.title == "Yard" && w.verbs.length == 1) = true := by decide +kernel
  have halike : ReadAlike 1 yardText := by
    constructor
    · intro c m h
      rw [h] at hgiven
      cases hgiven
    · intro u hu
      rw [hu] at hgiven
      exact verbsRepeatTexts_of_verbsAreTexts hgiven
  have hdigits (m : Nat) : Json.read .file 0 yardText ≠ .error ⟨.digits, m⟩ := by
    intro h
    rw [h] at hfile
    cases hfile
  have hagree := file_defines_what_text_defines (Cli.oneFile yardText) "w" yardText 1
    Cli.isPath_w rfl halike hdigits
  cases hw : Spec.ofValue 1 (.text yardText) with
  | ok w =>
    rw [hw] at hvalue
    have hshown : w.title = "Yard" ∧ w.verbs.length = 1 := by simpa [Except.toOption] using hvalue
    exact ⟨halike, hdigits, w, rfl, (hagree.1 _).2 ⟨w, hw, rfl⟩, hshown⟩
  | error p =>
    rw [hw] at hvalue
    cases hvalue

/-- With too many digits the text is refused, as it should be, but the file is rejected for no fault
of a world. -/
theorem globalOfOnes_rejected {k : Nat} (hk : Text.mostDigits ≤ k) :
    (∃ p, Spec.ofValue 0 (.text (Json.globalOfOnes k)) = .error p) ∧
      Spec.load (Cli.oneFile (Json.globalOfOnes k)) "w" = .error .badValue := by
  obtain ⟨m, hgiven⟩ := Json.exists_readAll_globalOfOnes .given 0 hk
  obtain ⟨n, hfile⟩ := Json.exists_readAll_globalOfOnes .file 0 hk
  have hread : Json.read .given 0 (Json.globalOfOnes k) = .error ⟨.digits, m⟩ := by
    rw [Json.read, hgiven]
    rfl
  have hends : '\r' ∉ (Json.globalOfOnes k).toList := by
    rw [Json.globalOfOnes, String.toList_ofList]
    simp [List.mem_replicate]
  refine ⟨⟨_, ofValue_of_refused hread⟩, ?_⟩
  · rw [load_eq_ofText Cli.isPath_w rfl, Text.unifyLineEnds_eq hends,
    Spec.ofText, Json.read_file, hfile]
    rfl

theorem huge_global_in_file :
    (∃ p, Spec.ofValue 0 (.text (Json.globalOfOnes 4300)) = .error p) ∧
      Spec.load (Cli.oneFile (Json.globalOfOnes 4300)) "w" = .error .badValue :=
  globalOfOnes_rejected le_rfl

end World

end Fable
