import Fable.Proofs.RoundTrip
import Fable.Proofs.Speech
import Fable.Proofs.Standard

namespace Fable

/-- Only what has a stamp can be inside itself. -/
theorem Value.any_isOne {a : Value} (ha : a.stampOf = 0)
    (hrecord : ∀ n, a ≠ .object n) (around : List Value) :
    around.any a.isOne = false := by
  refine List.any_eq_false.2 fun b _ ↦ ?_
  unfold isOne
  split
  · exact absurd rfl (hrecord _)
  · simp [ha]

namespace Value

variable {record : Reference} {around : List Value}

theorem exists_of_quotedItems {xs : List Value} {ts : List String}
    (h : quotedItems record around xs = .ok ts) :
    ∀ x ∈ xs, ∃ t, x.quoted record around = .ok t := by
  induction xs generalizing ts with
  | nil => exact List.forall_mem_nil _
  | cons x xs ih =>
    rw [quotedItems] at h
    obtain ⟨t, ht, h⟩ := exists_of_bind_ok h
    obtain ⟨ts, hts, -⟩ := exists_of_bind_ok h
    exact List.forall_mem_cons.2 ⟨⟨t, ht⟩, ih hts⟩

theorem exists_of_quotedEntries {es : List (Value × Value)} {ts : List String}
    (h : quotedEntries record around es = .ok ts) :
    ∀ e ∈ es, ∃ t, e.2.quoted record around = .ok t := by
  induction es generalizing ts with
  | nil => exact List.forall_mem_nil _
  | cons e es ih =>
    obtain ⟨k, v⟩ := e
    rw [quotedEntries] at h
    obtain ⟨name, _, h⟩ := exists_of_bind_ok h
    obtain ⟨t, ht, h⟩ := exists_of_bind_ok h
    obtain ⟨ts, hts, -⟩ := exists_of_bind_ok h
    exact List.forall_mem_cons.2 ⟨⟨t, ht⟩, ih hts⟩

end Value

namespace Json

def Printable (v : Value) : Prop :=
  ∀ record around t, v.quoted record around = .ok t → ∀ depth, ∃ u, pretty depth v = .ok u

variable {record : Value.Reference} {around : List Value}

theorem exists_pretty_list {xs : List Value} {depth : Nat}
    (hxs : ∀ x ∈ xs, ∃ u, pretty (depth + 1) x = .ok u) (n : Nat) :
    ∃ u, pretty depth (.list xs n) = .ok u := by
  obtain ⟨us, hus⟩ : ∃ us, prettyItems (depth + 1) xs = .ok us := by
    induction xs with
    | nil => exact ⟨[], rfl⟩
    | cons x xs ih =>
      obtain ⟨⟨u, hu⟩, hxs⟩ := List.forall_mem_cons.1 hxs
      obtain ⟨us, hus⟩ := ih hxs
      rw [prettyItems, hu, hus]
      exact ⟨_, rfl⟩
  rw [pretty, hus]
  exact ⟨_, rfl⟩

theorem exists_pretty_dict {es : List (Value × Value)} {depth : Nat}
    (hnames : ∀ e ∈ es, ∃ x, e.1 = .text x) (hes : ∀ e ∈ es, ∃ u, pretty (depth + 1) e.2 = .ok u)
    (n : Nat) : ∃ u, pretty depth (.dict es n) = .ok u := by
  obtain ⟨us, hus⟩ : ∃ us, prettyMembers (depth + 1) es = .ok us := by
    induction es with
    | nil => exact ⟨[], rfl⟩
    | cons e es ih =>
      obtain ⟨k, v⟩ := e
      obtain ⟨⟨x, rfl⟩, hothers⟩ := List.forall_mem_cons.1 hnames
      obtain ⟨⟨u, hu⟩, hrest⟩ := List.forall_mem_cons.1 hes
      obtain ⟨us, hus⟩ := ih hothers hrest
      rw [prettyMembers, hu, hus]
      exact ⟨_, rfl⟩
  rw [pretty, hus]
  exact ⟨_, rfl⟩

theorem exists_pretty_of_quoted_list {xs : List Value}
    (hxs : ∀ x ∈ xs, Printable x) {n : Nat} {t : String}
    (hone : around.any (Value.isOne (.list xs n)) = false)
    (h : Value.quoted record around (.list xs n) = .ok t) (depth : Nat) :
    ∃ u, pretty depth (.list xs n) = .ok u := by
  rw [Value.quoted, hone, if_neg Bool.false_ne_true] at h
  obtain ⟨ts, hts, -⟩ := exists_of_map_ok h
  refine exists_pretty_list (fun x hx ↦ ?_) n
  obtain ⟨u, hu⟩ := Value.exists_of_quotedItems hts x hx
  exact hxs x hx _ _ u hu (depth + 1)

theorem exists_pretty_of_quoted_dict {es : List (Value × Value)} (hnames : Table.Named es)
    (hes : ∀ e ∈ es, Printable e.2) {n : Nat} {t : String}
    (hone : around.any (Value.isOne (.dict es n)) = false)
    (h : Value.quoted record around (.dict es n) = .ok t) (depth : Nat) :
    ∃ u, pretty depth (.dict es n) = .ok u := by
  rw [Value.quoted, hone, if_neg Bool.false_ne_true] at h
  obtain ⟨ts, hts, -⟩ := exists_of_map_ok h
  refine exists_pretty_dict (fun e he ↦ hnames.exists_text he) (fun e he ↦ ?_) n
  obtain ⟨u, hu⟩ := Value.exists_of_quotedEntries hts e he
  exact hes e he _ _ u hu (depth + 1)

theorem printable_of_isJson {floats : Bool} {v : Value} (hv : v.IsJson floats) : Printable v := by
  induction hv with
  | none | bool | float | nan | text => exact fun _ _ _ _ _ ↦ ⟨_, rfl⟩
  | int n => exact fun _ _ t ht _ ↦ ⟨t, ht⟩
  | @list xs _ ih =>
    intro record around t ht depth
    exact exists_pretty_of_quoted_list ih (Value.any_isOne rfl (by simp) around) ht depth
  | @dict es hnames _ ih =>
    intro record around t ht depth
    exact exists_pretty_of_quoted_dict hnames ih (Value.any_isOne rfl (by simp) around) ht depth

/-- A sum that has a text can be printed. -/
theorem exists_pretty_of_isTally {v : Value} (hv : v.IsTally) {t : String}
    (ht : v.toText = .ok t) (depth : Nat) :
    ∃ u, pretty depth v = .ok u := by
  obtain ⟨w, n, hw, rfl⟩ := hv
  have hprintable := printable_of_isJson hw
  cases hw with
  | @list xs hxs =>
    have hquoted : Value.quoted Value.ellipsis [] (.list xs n) = .ok t := ht
    exact exists_pretty_of_quoted_list (fun x hx ↦ printable_of_isJson (hxs x hx)) rfl hquoted depth
  | @dict es hnames hes =>
    have hquoted : Value.quoted Value.ellipsis [] (.dict es n) = .ok t := ht
    exact exists_pretty_of_quoted_dict hnames (fun e he ↦ printable_of_isJson (hes e he)) rfl
      hquoted depth
  | text s => exact ⟨_, rfl⟩
  | none | bool | int | float | nan => exact hprintable Value.ellipsis [] t ht depth

end Json

theorem Table.of_mem_insert {α : Type} {t : Table α} {key : Value} {r : α} {e : Value × α}
    (h : e ∈ t.insert key r) : e ∈ t ∨ e.2 = r ∧ (e.1 = key ∨ e.1 ∈ t.keys) := by
  induction t with
  | nil =>
    obtain rfl := List.mem_singleton.1 h
    exact .inr ⟨rfl, .inl rfl⟩
  | cons f t ih =>
    rw [insert] at h
    split at h
    · rcases List.mem_cons.1 h with rfl | h
      · exact .inr ⟨rfl, .inr List.mem_cons_self⟩
      · exact .inl (List.mem_cons_of_mem _ h)
    · rcases List.mem_cons.1 h with rfl | h
      · exact .inl List.mem_cons_self
      · rcases ih h with he | ⟨hr, hkey⟩
        · exact .inl (List.mem_cons_of_mem _ he)
        · exact .inr ⟨hr, hkey.imp_right (List.mem_cons_of_mem _)⟩

theorem Store.Worded.of_insert {s t : Store} (hs : s.Worded) {id : String}
    {r : Record} (hr : r.Worded) (ht : t.records = s.records.insert (.text id) r) : t.Worded := by
  intro e he
  rw [ht] at he
  rcases Table.of_mem_insert he with he | ⟨hrecord, hid⟩
  · exact hs e he
  · refine ⟨?_, hrecord ▸ hr⟩
    rcases hid with hid | hid
    · rw [hid]
      rfl
    · obtain ⟨f, hf, hid⟩ := List.mem_map.1 hid
      exact hid ▸ (hs f hf).1

theorem Game.textual_of_start {config : Config} {g : Game} (hstart : Game.start config = .ok g)
    (hplayer : config.playerId.isText)
    (hbanners : config.deathBanner.isText ∧ config.victoryBanner.isText) :
    g.Textual := by
  obtain ⟨-, generator, log, rfl⟩ := exists_eq_of_start hstart
  refine ⟨⟨hbanners, ?_, ?_, ?_, ?_, rfl⟩, by simp⟩
  · intro e he
    obtain rfl := List.mem_singleton.1 he
    exact ⟨hplayer, rfl, .inl rfl, .dict Table.named_nil (List.forall_mem_nil _)⟩
  · intro name r hr
    cases hr
  · simp [globalOr, reserved, Table.find?_cons, Value.alike_text, Value.same_text,
      (Value.IsJson.int 0).isTally]
  · simp [globalOr, reserved, Table.find?_cons, Value.alike_text, Value.same_text,
      (Value.IsJson.int 0).isTally]

namespace World

open Play Runs

theorem ObjectSpec.Shown.worded {o : ObjectSpec} {r : Record} (h : o.Shown r)
    (ho : (Value.dict o.properties).IsJson true) : r.Worded where
  name := by
    rw [Record.name, h.desc, h.id]
    cases o.desc with
    | none => rfl
    | some x =>
      split
      · rfl
      · rfl
  action := by
    rw [h.action]
    cases o.action with
    | none => exact .inl rfl
    | some x => exact .inr rfl
  properties := h.properties ▸ ho

theorem speaking_define {o : ObjectSpec} (ho : (Value.dict o.properties).IsJson true) :
    Speaking (onStore (Store.define (.text o.id) (o.attributes (.dict o.properties)))) := by
  intro g hg
  rcases define_shown o g.store o.properties 0 with ⟨f, -, he⟩ | ⟨v, t, r, he, ht, hr⟩
  · rw [exit?_of_error (onStore_of_error he), after_of_error (onStore_of_error he)]
    exact hg
  · rw [exit?_of_ok (onStore_of_ok he), after_of_ok (onStore_of_ok he)]
    exact ⟨hg.toWorded.of_store (hg.store.of_insert (hr.worded ho) ht), hg.written⟩

theorem speaking_installObject {o : ObjectSpec} (ho : (Value.dict o.properties).IsJson true) :
    Speaking o.install := by
  refine .get_bind fun s ↦ Speaking.bind_of (.lift _) fun _ t _ _ hopened ↦ ?_
  refine Speaking.bind_of (.freshCopy _) fun g v _ _ hcopy ↦ ?_
  obtain rfl := Except.ok.inj ((opened_of_isJson ho s.store).symm.trans (ok_of_lift hopened))
  obtain rfl : v = .dict o.properties := by
    have hv : v = ((Value.dict o.properties).stamped g.stamp).1 := by
      cases hcopy
      rfl
    rw [hv, ho.stamped]
  refine Speaking.tryCatch (.bind (speaking_define ho) fun _ ↦ .pure ()) (fun f ↦ ?_)
    (fun s g ↦ ?_) fun _ ↦ rfl
  · cases f <;> exact .fail _
  · exact Game.Leaves.signal g s

theorem speaking_install {w : Spec} (hglobals : (Value.dict w.globals).IsJson true)
    (hobjects : ∀ o ∈ w.objects, (Value.dict o.properties).IsJson true) : Speaking w.install := by
  have hlast : Speaking (do
      note (.installed w.title w.objects.length)
      pure (optional w.start)) := .bind (.note _) fun _ ↦ .pure _
  refine .bind (.forM_of_mem fun e he ↦ ?_) fun _ ↦ .bind (.forM fun e ↦ ?_) fun _ ↦ ?_
  · obtain ⟨name, v⟩ := e
    cases hglobals with
    | dict hnamed hvalues =>
      obtain ⟨x, rfl⟩ := hnamed.exists_text he
      exact Speaking.setGlobal fun _ ↦ (hvalues _ he).isTally
  · refine .bind (.bind (.demand _) fun _ ↦ .bind (fun g hg ↦ ?_) fun _ ↦ .pure _) fun _ ↦ .pure ()
    exact ⟨⟨hg.banners, hg.store, hg.verbs, hg.score, hg.moves, hg.prompts⟩, hg.written⟩
  refine .bind (.forM_of_mem fun o ho ↦ speaking_installObject (hobjects o ho)) fun _ ↦ ?_
  split
  · exact hlast
  · exact .get_bind fun _ ↦ .ite (.bind (.fail _) fun _ ↦ hlast) hlast

theorem textual_of_prepare {w : Spec} {config : Config} {g h : Game}
    {v x : Value} (hx : x.IsJson true) (hw : check .value x = .ok w)
    (hstart : Game.start config = .ok g) (hplayer : config.playerId.isText)
    (hbanners : config.deathBanner.isText ∧ config.victoryBanner.isText)
    (hprepare : Cli.prepare w g = .ok v h) : h.Textual := by
  obtain ⟨_, k, hverbs, hinstall⟩ := of_bind_ok hprepare
  have hg := Game.textual_of_start hstart hplayer hbanners
  have hk : k.Textual := by
    obtain ⟨m, hrun, hm, -⟩ := installStandardVerbs_run g
    obtain rfl : m = k := by
      rw [hrun] at hverbs
      cases hverbs
      rfl
    refine ⟨⟨hm.config ▸ hg.banners, hm.store ▸ hg.store, hm.only hg.verbs, ?_, ?_,
      hm.prompts.trans hg.prompts⟩, hm.written ▸ hg.written⟩
    · rw [Game.globalOr, hm.globals]
      exact hg.score
    · rw [Game.globalOr, hm.globals]
      exact hg.moves
  have hheard :=
    speaking_install (isJson_globals hx hw) (fun o ho ↦ (isJson_of_check hx hw ho).2) k hk
  rwa [exit?_of_ok hinstall, after_of_ok hinstall] at hheard

end World

namespace Cli

open Runs World

end Cli

end Fable
