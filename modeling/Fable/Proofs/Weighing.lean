import Fable.Proofs.Telling
import Fable.Proofs.Weight

namespace Fable

namespace Store

variable {s t : Store}

/-- The sizes of the objects that a container holds; an object without a size counts nothing. -/
def heldSizes (s : Store) (c : Value) : List ℤ :=
  (s.records.filter fun e ↦ s.held e.1 c).map fun e ↦ e.2.size.int?.getD 0

theorem Reachable.nodup_keys (hr : Reachable s) : (s.records.map (·.1.string?)).Nodup := by
  have hp := hr.ids_pairwise
  rw [ids, Table.keys, List.pairwise_map] at hp
  exact List.pairwise_map.2 hp

theorem Reachable.find?_of_mem (hr : Reachable s) {e : Value × Record} (he : e ∈ s.records) :
    s.find? e.1 = some e.2 :=
  s.find?_of_mem hr.ids_pairwise he (hr.isText_of_mem_ids (List.mem_map_of_mem he))

theorem Reachable.sizeOf_eq (hr : Reachable s) {e : Value × Record} (he : e ∈ s.records) :
    s.sizeOf e.1 = e.2.size.int?.getD 0 := by
  have hkey : Field.ofKey? (.text "size") = some .size := by decide
  have hfield : e.2.field .size = e.2.size := rfl
  rw [sizeOf, property, hr.find?_of_mem he]
  simp only [hkey, hfield]
  cases e.2.size <;> rfl

theorem Reachable.contents_eq_sum (hr : Reachable s) {c : Value} {n : String}
    (hc : c.string? = some n) :
    s.contents n = (s.heldSizes c).sum := by
  have hct : c.isText := Value.isText_iff.2 ⟨n, hc⟩
  have hname {e : Value × Record} (he : e ∈ s.records) :
      e.1.string? = some (e.1.string?.getD "") := by
    obtain ⟨a, ha⟩ := Value.isText_iff.1 (hr.isText_of_mem_ids (List.mem_map_of_mem he))
    rw [ha, Option.getD_some]
  let held := (s.records.filter fun e ↦ s.held e.1 c).map fun e ↦ e.1.string?.getD ""
  have hnodup : held.Nodup := by
    refine List.Nodup.map_on (fun d hd e he hde ↦ ?_) ((List.Nodup.of_map _ hr.nodup_keys).filter _)
    have hd := (List.mem_filter.1 hd).1
    have he := (List.mem_filter.1 he).1
    apply List.inj_on_of_nodup_map hr.nodup_keys hd he
    rw [hname hd, hname he, hde]
  have hset : held.toFinset = s.links.below s.names.toFinset n := by
    ext y
    have hiff {e : Value × Record} (he : e.1.string? = some y) :
        s.held e.1 c ↔ ∃ k, s.links.step^[k + 1] (some y) = some n := by
      have ht : e.1.isText := Value.isText_iff.2 ⟨y, he⟩
      rw [hr.nested.held_iff ht hct, hr.nested.placed.inside_iff (.of_isText ht) hct, he, hc]
    rw [List.mem_toFinset, Links.mem_below, List.mem_toFinset]
    constructor
    · intro hy
      obtain ⟨e, he, rfl⟩ := List.mem_map.1 hy
      obtain ⟨he, hheld⟩ := List.mem_filter.1 he
      exact ⟨List.mem_filterMap.2 ⟨e.1, List.mem_map_of_mem he, hname he⟩,
        (hiff (hname he)).1 hheld⟩
    · rintro ⟨hy, hk⟩
      obtain ⟨k, hmem, hky⟩ := List.mem_filterMap.1 hy
      obtain ⟨e, he, rfl⟩ := List.mem_map.1 hmem
      refine List.mem_map.2 ⟨e, List.mem_filter.2 ⟨he, (hiff hky).2 hk⟩, ?_⟩
      rw [hky, Option.getD_some]
  rw [contents, ← hset, List.sum_toFinset _ hnodup, List.map_map, heldSizes]
  refine congrArg List.sum (List.map_congr_left fun e he ↦ ?_)
  have he := (List.mem_filter.1 he).1
  rw [Function.comp_apply, ← s.sizeOf_of_string? (hname he), hr.sizeOf_eq he]

end Store

namespace Play

/-- Weighing a container comes to its end, changes nothing, and counts each of the objects that the
container holds once, whether the container is itself an object or not. -/
theorem weight_counts_held {g : Game} (hr : g.store.Reachable) (hs : g.store.Measured) {c : Value}
    (hc : c.isText) : weight c g = .ok (.int (g.store.heldSizes c).sum) g ∧
      g.store.ids.Pairwise fun x y ↦ ¬ Value.same x y := by
  obtain ⟨n, hn⟩ := Value.isText_iff.1 hc
  constructor
  · rw [weight, Runs.bind_of_ok (demand_of_hashable (Value.hashable_of_isText hc) g), Runs.get_bind,
      hr.weight_of_measured hs hn, hr.contents_eq_sum hn]
    rfl
  · refine hr.ids_pairwise.imp_of_mem fun {x y} _ hy hne ↦ ?_
    rw [Value.same_eq_of_isText x (hr.isText_of_mem_ids hy), beq_iff_eq]
    exact hne

end Play

namespace Store

def cellarCalls : List Call := [
  .define (.text "SACK") { parent := .text "CELLAR", fields := [(.size, .int 10)] },
  .define (.text "BAG") { parent := .text "SACK", fields := [(.size, .none)] },
  .define (.text "COIN") { parent := .text "BAG", fields := [(.size, .int 3)] }]

def cellar : Store := history cellarCalls

theorem reachable_cellar : Reachable cellar :=
  reachable_history (by decide +kernel)

end Store

theorem Play.cellar_holds_thirteen :
    let g : Game := { store := Store.cellar }
    g.store.Reachable ∧ g.store.Measured ∧ weight (.text "CELLAR") g = .ok (.int 13) g := by
  intro g
  have hs : g.store.Measured := by decide +kernel
  have hsizes : g.store.heldSizes (.text "CELLAR") = [10, 0, 3] := by decide +kernel
  have h := (weight_counts_held (c := .text "CELLAR") Store.reachable_cellar hs rfl).1
  rw [hsizes] at h
  exact ⟨Store.reachable_cellar, hs, h⟩

namespace Store

variable {s t : Store}

/-- A move takes what the object weighs, with all that is in it, away from the containers that held
it, and adds it to the place where the object comes and to the containers that hold this place. What
the object and all in it hold weighs the same as before. -/
theorem weights_after_move (hr : Reachable s) (hs : s.Measured) {x p c : Value} (hd : s.isDefined x)
    (hp : p.IsPlace) (hc : c.isText) (h : move x p s = .ok () t) :
    ∃ size inside before : ℤ, (s.property x (.text "size") (.int 0)).int? = some size ∧
      s.weight x = .ok (.int inside) ∧ s.weight c = .ok (.int before) ∧
      t.weight c = .ok (.int (before - (if s.held x c then size + inside else 0) +
        if Value.same p c ∨ s.held p c then size + inside else 0)) ∧
      ∀ y, y.isText → Value.same y x ∨ s.held y x → t.weight y = s.weight y := by
  have hxt := hr.isText_of_isDefined hd
  obtain ⟨a, ha⟩ := Value.isText_iff.1 hxt
  obtain ⟨n, hn⟩ := Value.isText_iff.1 hc
  have ht := (hr.move hd hp h).1
  have hst := (sameSizes_of_move hxt h).measured hs
  refine ⟨_, _, _, hs.int?_property x, hr.weight_of_measured hs ha,
    hr.weight_of_measured hs hn, ?_, ?_⟩
  · rw [ht.weight_of_measured hst hn, hr.contents_after_move ha hp hd h hn]
  · intro y hy hyx
    obtain ⟨b, hb⟩ := Value.isText_iff.1 hy
    obtain ⟨k, hk⟩ := (hr.nested.leads_iff (.of_isText hy) ha).2 hyx
    have hreach : s.links.Reaches b a := ⟨k, by rw [← hb, hk]⟩
    rw [ht.weight_of_measured hst hb, hr.contents_inside_moved ha hp hd h hreach,
      hr.weight_of_measured hs hb]

/-- The bag is taken out of the sack and put into none: the cellar weighs less by the coin, the bag
as before. -/
theorem bag_taken_out_of_cellar :
    ∃ t, cellar.isDefined (.text "BAG") ∧ move (.text "BAG") .none cellar = .ok () t ∧
      cellar.held (.text "BAG") (.text "CELLAR") ∧ cellar.weight (.text "CELLAR") = .ok (.int 13) ∧
      t.weight (.text "CELLAR") = .ok (.int 10) ∧
      t.weight (.text "BAG") = cellar.weight (.text "BAG") := by
  have hd : cellar.isDefined (.text "BAG") := by decide +kernel
  have hs : cellar.Measured := by decide +kernel
  have htext : (Value.text "BAG").isText := rfl
  have hmove : ∃ t, move (.text "BAG") .none cellar = .ok () t := by
    rcases move_cases htext Value.isPlace_none cellar with ⟨f, hf, -⟩ | ⟨hu, -⟩ | ⟨t, ht, -⟩
    · rw [obstacle?_of_isNone _ rfl] at hf
      cases hf
    · exact absurd (hd.symm.trans hu) (by decide)
    · exact ⟨t, ht⟩
  obtain ⟨t, ht⟩ := hmove
  obtain ⟨size, inside, before, hsize, hinside, hbefore, hafter, hkept⟩ :=
    weights_after_move (c := .text "CELLAR") reachable_cellar hs hd Value.isPlace_none rfl ht
  have hzero : (cellar.property (.text "BAG") (.text "size") (.int 0)).int? = some 0 := by
    decide +kernel
  have hthree : (cellar.weight (.text "BAG")).toOption.bind Value.int? = some 3 := by decide +kernel
  have hthirteen : (cellar.weight (.text "CELLAR")).toOption.bind Value.int? = some 13 := by
    decide +kernel
  have hheld : cellar.held (.text "BAG") (.text "CELLAR") = true := by decide +kernel
  obtain rfl : size = 0 := Option.some.inj (hsize.symm.trans hzero)
  obtain rfl : inside = 3 := by
    rw [hinside] at hthree
    exact Option.some.inj hthree
  obtain rfl : before = 13 := by
    rw [hbefore] at hthirteen
    exact Option.some.inj hthirteen
  have hbelow : ¬ (Value.same .none (.text "CELLAR") ∨ cellar.held .none (.text "CELLAR")) := by
    decide +kernel
  rw [if_pos hheld, if_neg hbelow] at hafter
  exact ⟨t, hd, ht, hheld, hbefore, hafter, hkept _ rfl (.inl (by decide +kernel))⟩

end Store

end Fable
