import Fable.Proofs.Documents
import Fable.Proofs.Endings
import Fable.Proofs.Marks

namespace Fable

namespace Value

def IsTally (v : Value) : Prop := ∃ u n, IsJson true u ∧ v = u.withStamp n

variable {a b c : Value}

theorem IsJson.isTally (h : a.IsJson true) : a.IsTally := by
  refine ⟨a, 0, h, ?_⟩
  cases h <;> rfl

theorem isJson_ofFloat (x : Float) : (ofFloat 0 x).IsJson true := by
  unfold ofFloat
  split
  · exact .nan 0 rfl
  · exact .float x rfl

theorem isJson_addFloats {x y : Float} (h : addFloats x y = .ok c) : c.IsJson true := by
  cases h
  exact isJson_ofFloat _

theorem IsTally.isJson_of_mem {xs : List Value} {n : Nat} (h : (list xs n).IsTally) :
    ∀ x ∈ xs, x.IsJson true := by
  obtain ⟨u, m, hu, hlist⟩ := h
  cases hu with
  | list hxs =>
    obtain ⟨rfl, -⟩ := Value.list.inj hlist
    exact hxs
  | _ => cases hlist

theorem isJson_add (ha : a.IsTally) (hb : b.IsTally) (h : a.add b = .ok c) : c.IsJson true := by
  unfold add at h
  split at h
  · exact isJson_addFloats h
  · obtain ⟨y, -, h⟩ := exists_of_bind_ok h
    exact isJson_addFloats h
  · obtain ⟨x, -, h⟩ := exists_of_bind_ok h
    exact isJson_addFloats h
  · split at h
    · cases h
      exact .int _
    · split at h
      · cases h
        exact .text _
      · split at h
        · cases h
          exact .list (List.forall_mem_append.2 ⟨ha.isJson_of_mem, hb.isJson_of_mem⟩)
        · cases h

theorem exists_add (ha : a.isText) (hb : b.isText) : ∃ c, a.add b = .ok c := by
  obtain ⟨x, hx⟩ := isText_iff.1 ha
  obtain ⟨y, hy⟩ := isText_iff.1 hb
  refine ⟨.text (x ++ y), ?_⟩
  cases a <;> cases hx <;> cases b <;> cases hy <;> rfl

theorem isText_add (ha : a.isText) (hb : b.isText) (h : a.add b = .ok c) : c.isText := by
  obtain ⟨x, hx⟩ := isText_iff.1 ha
  obtain ⟨y, hy⟩ := isText_iff.1 hb
  cases a <;> cases hx <;> cases b <;> cases hy <;> cases h <;> rfl

end Value

namespace Play

open Runs

theorem isText_echoed {s : Store} {prompt line v : Value} (h : echoed s prompt line = .ok v) :
    v.isText := by
  obtain ⟨x, -, h⟩ := exists_of_bind_ok h
  obtain ⟨y, -, h⟩ := exists_of_bind_ok h
  cases h
  rfl

theorem isTally_of_fresh {v w : Value} {g h : Game} (hv : v.IsJson true)
    (hrun : fresh v g = .ok w h) :
    w.IsTally := by
  have htally := hv.isTally
  cases hv with
  | nan n =>
    cases hrun
    exact (Value.IsJson.nan _ rfl).isTally
  | list hxs =>
    cases hrun
    exact ⟨_, _, .list hxs, rfl⟩
  | dict hnamed hes =>
    cases hrun
    exact ⟨_, _, .dict hnamed hes, rfl⟩
  | none | bool | int | float | text =>
    cases hrun
    exact htally

theorem isTally_of_sum {a b c : Value} {g h : Game} (ha : a.IsTally) (hb : b.IsTally)
    (hrun : sum a b g = .ok c h) : c.IsTally := by
  obtain ⟨v, k, hlift, hrun⟩ := of_bind_ok hrun
  cases hadd : a.add b with
  | ok w =>
    rw [hadd] at hlift
    cases hlift
    exact isTally_of_fresh (Value.isJson_add ha hb hadd) hrun
  | error f =>
    rw [hadd] at hlift
    cases hlift

end Play

structure Record.Worded (r : Record) : Prop where
  name : r.name.isText
  action : r.action.isNone ∨ r.action.isText
  properties : (Value.dict r.properties).IsJson true

namespace Store

def Worded (s : Store) : Prop := ∀ e ∈ s.records, e.1.isText ∧ e.2.Worded

variable {s t : Store} {id : Value}

theorem Worded.of_find? (hs : s.Worded) {r : Record} (hr : s.find? id = some r) :
    id.isText ∧ r.Worded := by
  obtain ⟨e, he, ha, rfl⟩ := exists_mem_of_find? s hr
  obtain ⟨hid, hr⟩ := hs e he
  rw [Value.alike_eq_of_isText_left hid, beq_iff_eq] at ha
  exact ⟨by rwa [Value.isText, ← ha], hr⟩

theorem Worded.update (hs : s.Worded) (id : Value) {f : Record → Record}
    (hf : ∀ r, r.Worded → (f r).Worded) :
    (s.update id f).Worded := by
  intro e he
  obtain ⟨e', he', rfl⟩ := List.mem_map.1 he
  obtain ⟨hid, hr⟩ := hs e' he'
  split
  · exact ⟨hid, hf _ hr⟩
  · exact ⟨hid, hr⟩

theorem Worded.of_move (hs : s.Worded) {into : Value} (h : move id into s = .ok () t) :
    t.Worded := by
  rcases of_move_ok h with rfl | ⟨r, -, -, rfl⟩
  · exact hs
  · have hmoved := hs.update id (f := fun r ↦ { r with parent := into })
      fun r hr ↦ ⟨hr.name, hr.action, hr.properties⟩
    exact hmoved

theorem Worded.of_edit (hs : s.Worded) {objection : Option Fault} {f : Record → Record}
    (hf : ∀ r, r.Worded → (f r).Worded) (h : edit id objection f s = .ok () t) : t.Worded := by
  rcases of_edit_ok h with rfl | rfl
  · exact hs
  · exact hs.update id hf

theorem Worded.isTally_value (hs : s.Worded) (x : Value) :
    (s.property x (.text "VALUE") (.int 0)).IsTally := by
  have hkey : Field.ofKey? (.text "VALUE") = none := by decide
  rw [property]
  cases hr : s.find? x with
  | none => exact (Value.IsJson.int 0).isTally
  | some r =>
    have hproperties := (hs.of_find? hr).2.properties
    simp only [hkey]
    cases hv : r.properties.find? (.text "VALUE") with
    | none => exact (Value.IsJson.int 0).isTally
    | some v =>
      cases hproperties with
      | dict _ hes =>
        obtain ⟨e, he, rfl⟩ := Option.map_eq_some_iff.1 hv
        exact (hes e (List.mem_of_find?_eq_some he)).isTally

theorem Worded.isText_describe (hs : s.Worded) {v w : Value} (h : s.describe v = .ok w) :
    w.isText := by
  unfold describe at h
  split at h
  · next x hx =>
    have hv : v.isText := by rw [Value.isText, hx]; rfl
    split at h
    · next r hr =>
      cases h
      rw [← find?_eq_lookup? s hv] at hr
      exact (hs.of_find? hr).2.name
    · cases h
      rfl
  · obtain ⟨x, -, rfl⟩ := exists_of_map_ok h
    rfl

end Store

namespace Tell

variable {voice : Voice} (hvoice : ∀ v w, voice.describe v = .ok w → w.isText)

include hvoice

theorem isText_operand {d : Directive} {position : Nat} {v w : Value}
    (h : operand voice d position v = .ok w) :
    w.isText := by
  unfold operand at h
  split at h
  · exact hvoice v w h
  · obtain ⟨x, -, rfl⟩ := exists_of_map_ok h
    rfl
  · obtain ⟨x, -, rfl⟩ := exists_of_map_ok h
    rfl

omit hvoice in
theorem isText_plain {v w : Value} (h : plain voice v = .ok w) : w.isText := by
  unfold plain at h
  split at h
  · cases h
    rfl
  · cases h
    rfl
  · obtain ⟨x, -, rfl⟩ := exists_of_map_ok h
    rfl

/-- Whatever tokens there are, what is written of them is text. -/
theorem isText_of_mem_render (position : Nat) (tokens : List Value) :
    ∀ v ∈ (render voice position tokens).1, v.isText := by
  fun_induction render voice position tokens with
  | case1 => simp
  | case2 position rest out fault hrest ih =>
    rw [hrest] at ih
    exact List.forall_mem_cons.2 ⟨rfl, ih⟩
  | case3 => simp
  | case4 position d v rest hd w hw out fault hrest ih =>
    rw [hrest] at ih
    exact List.forall_mem_cons.2 ⟨isText_operand hvoice hw, ih⟩
  | case5 => simp
  | case6 position v rest hv hv' hv'' w hw out fault hrest ih =>
    rw [hrest] at ih
    exact List.forall_mem_cons.2 ⟨isText_plain hw, ih⟩
  | case7 => simp

end Tell

namespace Game

def epitaph (g : Game) : Value := g.store.property (g.global "HERE") (.text "DEATH") .none

structure Worded (g : Game) : Prop where
  banners : g.config.deathBanner.isText ∧ g.config.victoryBanner.isText
  store : g.store.Worded
  verbs : g.OnlyVerbs
  score : (g.globalOr "SCORE" (.int 0)).IsTally
  moves : (g.globalOr "MOVES" (.int 0)).IsTally
  prompts : g.prompts = #[]

structure Textual (g : Game) : Prop extends g.Worded where
  written : ∀ v ∈ g.written, v.isText

/-- Everything written so far is text if and only if the epitaph is. -/
structure Mourned (g : Game) : Prop extends g.Worded where
  written : (∀ v ∈ g.written, v.isText) ↔ g.epitaph.isText

def Heard : Option Exit → Game → Prop
  | some (.ended .died), g => g.Mourned
  | _, g => g.Textual

/-- Only texts are written, but for an epitaph. -/
def Speaks (g : Game) (e : Option Exit) (h : Game) : Prop := g.Textual → Heard e h

variable {g h : Game}

theorem Worded.of_told (hg : g.Worded) (ht : g.Told h) (hprompts : h.prompts = g.prompts) :
    h.Worded where
  banners := ht.config ▸ hg.banners
  store := ht.store ▸ hg.store
  verbs := by
    rw [OnlyVerbs, ht.routines]
    exact hg.verbs
  score := ht.globalOr _ _ ▸ hg.score
  moves := ht.globalOr _ _ ▸ hg.moves
  prompts := hprompts.trans hg.prompts

theorem Textual.of_silent (hg : g.Textual) (hs : g.Silent h) : h.Textual :=
  ⟨hg.toWorded.of_told hs.toTold hs.prompts, hs.written ▸ hg.written⟩

theorem Worded.of_store (hg : g.Worded) {s : Store} (hs : s.Worded) :
    { g with store := s }.Worded :=
  ⟨hg.banners, hs, hg.verbs, hg.score, hg.moves, hg.prompts⟩

theorem Worded.assign (hg : g.Worded) (name : String) (v : Value)
    (hv : name = "SCORE" ∨ name = "MOVES" → v.IsTally) : (g.assign name v).Worded where
  banners := hg.banners
  store := hg.store
  verbs := hg.verbs
  score := by
    rw [globalOr_assign]
    split
    · next hname => exact hv (.inl hname)
    · exact hg.score
  moves := by
    rw [globalOr_assign]
    split
    · next hname => exact hv (.inr hname)
    · exact hg.moves
  prompts := hg.prompts

theorem mem_written_wrote {v : Value} (vs : List Value) :
    v ∈ (g.wrote vs).written ↔ v ∈ g.written ∨ v ∈ vs := by
  rw [← Array.mem_toList_iff, Game.toList_wrote, List.mem_append, Array.mem_toList_iff]

theorem Worded.wrote (hg : g.Worded) (vs : List Value) : (g.wrote vs).Worded :=
  hg.of_told (g.told_wrote vs) rfl

theorem Textual.wrote (hg : g.Textual) (vs : List Value) (hvs : ∀ v ∈ vs, v.isText) :
    (g.wrote vs).Textual := by
  refine ⟨hg.toWorded.wrote vs, fun v hv ↦ ?_⟩
  rcases (mem_written_wrote vs).1 hv with hv | hv
  · exact hg.written v hv
  · exact hvs v hv

/-- The player dies of what the room says. -/
theorem Textual.fallen (hg : g.Textual) {banner : Value} (hbanner : banner.isText) :
    (g.fallen g.epitaph banner).Mourned := by
  have hworded :=
    (hg.toWorded.wrote [g.epitaph, .text "\n\n", banner]).assign "DEAD-FLAG" (.bool true) (by simp)
  refine ⟨⟨hworded.banners, hworded.store, hworded.verbs, hworded.score,
    hworded.moves, hworded.prompts⟩, ?_⟩
  have hepitaph : (g.fallen g.epitaph banner).epitaph = g.epitaph := by
    have hhere : (g.fallen g.epitaph banner).global "HERE" = g.global "HERE" :=
      (global_assign (g.wrote _) "DEAD-FLAG" (.bool true) "HERE").trans (if_neg (by decide))
    rw [epitaph, hhere]
    rfl
  rw [hepitaph]
  constructor
  · intro hwritten
    exact hwritten _ ((mem_written_wrote _).2 (.inr List.mem_cons_self))
  · intro htext v hv
    rcases (mem_written_wrote _).1 hv with hv | hv
    · exact hg.written v hv
    · simp only [List.mem_cons, List.not_mem_nil, or_false] at hv
      rcases hv with rfl | rfl | rfl
      · exact htext
      · rfl
      · exact hbanner

instance : Law Speaks where
  silent hs hg := hg.of_silent hs
  failed _ _ := id
  trans hg hh hk := hh (hg hk)

instance : Leaves Speaks := ⟨fun _ _ ↦ id⟩

end Game

namespace Play

open Runs Game

variable {α β : Type} {g : Game}

abbrev Speaking (p : Play α) : Prop := Obeys Speaks p

end Play

end Fable
