import Fable.Object.View
import Mathlib.Data.List.Forall2
import Mathlib.Data.List.Nodup
import Mathlib.Data.List.Perm.Subperm

namespace Fable

namespace Value

/-- Nothing, truth values, whole numbers, texts, messages, directives, the fatal value, and lists
and dictionaries of these. The keys of a dictionary can name something and are all different. -/
inductive IsData : Value → Prop
  | none : IsData none
  | bool (b : Bool) : IsData (bool b)
  | int (n : Int) : IsData (int n)
  | text (s : String) : IsData (text s)
  | message (m : Message) : IsData (message m)
  | directive (d : Directive) : IsData (directive d)
  | fatal : IsData fatal
  | list {xs : List Value} {stamp : Nat} : (∀ x ∈ xs, IsData x) → IsData (list xs stamp)
  | dict {es : List (Value × Value)} {stamp : Nat} :
      (∀ e ∈ es, IsData e.1) → (∀ e ∈ es, IsData e.2) →
      (∀ e ∈ es, e.1.hashable) → es.Pairwise (fun d e ↦ ¬ same d.1 e.1) → IsData (dict es stamp)

/-- What a value without parts is compared by. -/
inductive Atom
  | nothing
  | whole (n : Int)
  | text (s : String)
  | directive (d : Directive)
  | fatal
  deriving DecidableEq

def atom? : Value → Option Atom
  | none => some .nothing
  | bool b => some (.whole (if b then 1 else 0))
  | int n => some (.whole n)
  | text s => some (.text s)
  | message m => some (.text m.text)
  | directive d => some (.directive d)
  | fatal => some .fatal
  | _ => Option.none

variable (peers : Nat → Nat → Bool) {a b c : Value} {x : Atom} {xs ys : List Value}
  {es fs : List (Value × Value)}

theorem sameBy_iff_of_atom? (ha : a.atom? = some x) (hb : b.IsData) :
    sameBy peers a b ↔ b.atom? = some x := by
  cases a <;> simp only [atom?, reduceCtorEq, Option.some.injEq] at ha <;> subst ha <;> cases hb <;>
    grind [sameBy, atom?, isNone, sameWhole, hasText]

theorem IsData.exists_atom? (ha : a.IsData) (hh : a.hashable) : ∃ x, a.atom? = some x := by
  cases ha with
  | list | dict => simp [hashable] at hh
  | _ => exact ⟨_, rfl⟩

theorem IsData.itself_eq_false (ha : a.IsData) (b : Value) : itself a b = false := by
  cases ha <;> rfl

theorem sameItems_iff (hxs : ∀ x ∈ xs, x.IsData) :
    sameItems peers xs ys ↔ List.Forall₂ (fun x y ↦ sameBy peers x y) xs ys := by
  induction xs generalizing ys with
  | nil => cases ys <;> simp [sameItems]
  | cons x xs ih =>
    cases ys with
    | nil => simp [sameItems]
    | cons y ys =>
      rw [sameItems, (hxs x List.mem_cons_self).itself_eq_false, Bool.false_or, Bool.and_eq_true,
        ih fun z hz ↦ hxs z (List.mem_cons_of_mem _ hz), List.forall₂_cons]

theorem sameEntries_iff (hkeys : ∀ e ∈ es, e.1.IsData) (hvalues : ∀ e ∈ es, e.2.IsData) :
    sameEntries peers es fs ↔ ∀ e ∈ es, ∃ f ∈ fs, sameBy peers e.1 f.1 ∧ sameBy peers e.2 f.2 := by
  induction es with
  | nil => simp [sameEntries]
  | cons e es ih =>
    obtain ⟨k, v⟩ := e
    have hk := (hkeys _ List.mem_cons_self).itself_eq_false
    have hv := (hvalues _ List.mem_cons_self).itself_eq_false
    rw [sameEntries, Bool.and_eq_true, List.any_eq_true, List.forall_mem_cons,
      ih (fun f hf ↦ hkeys f (List.mem_cons_of_mem _ hf)) fun f hf ↦
        hvalues f (List.mem_cons_of_mem _ hf)]
    simp only [hk, hv, Bool.false_or, Bool.and_eq_true]

theorem nodup_atoms (hkeys : ∀ e ∈ es, e.1.IsData) (hh : ∀ e ∈ es, e.1.hashable)
    (hne : es.Pairwise fun d e ↦ ¬ same d.1 e.1) : (es.map (·.1.atom?)).Nodup := by
  refine List.pairwise_map.2 (hne.imp_of_mem fun {d e} hd he hde hsame ↦ hde ?_)
  obtain ⟨x, hx⟩ := (hkeys d hd).exists_atom? (hh d hd)
  exact (sameBy_iff_of_atom? _ hx (hkeys e he)).2 (hsame ▸ hx)

/-- If every key of one dictionary is in another of the same length, every key of the other is in
the first. -/
theorem exists_atom?_of_length (hes : (es.map (·.1.atom?)).Nodup) (hlength : es.length = fs.length)
    (h : ∀ e ∈ es, ∃ f ∈ fs, f.1.atom? = e.1.atom?) {f : Value × Value} (hf : f ∈ fs) :
    ∃ e ∈ es, e.1.atom? = f.1.atom? := by
  have hsubset : es.map (·.1.atom?) ⊆ fs.map (·.1.atom?) := by
    intro x hx
    obtain ⟨e, he, rfl⟩ := List.mem_map.1 hx
    obtain ⟨g, hg, hge⟩ := h e he
    exact List.mem_map.2 ⟨g, hg, hge⟩
  have hperm := (List.subperm_of_subset hes hsubset).perm_of_length_le (by simp [hlength])
  exact List.mem_map.1 (hperm.mem_iff.2 (List.mem_map_of_mem hf))

theorem IsData.sameBy_self (ha : a.IsData) : sameBy peers a a := by
  have hself := like_self peers a
  rwa [ha.itself_eq_false, Bool.false_or] at hself

theorem IsData.sameBy_symm (ha : a.IsData) (hb : b.IsData) (h : sameBy peers a b) :
    sameBy peers b a := by
  induction ha generalizing b with
  | @list xs n hxs ih =>
    cases hb with
    | @list ys m hys =>
      rw [sameBy, sameItems_iff peers hxs, List.forall₂_iff_get] at h
      rw [sameBy, sameItems_iff peers hys, List.forall₂_iff_get]
      refine ⟨h.1.symm, fun i hi hi' ↦ ?_⟩
      exact ih _ (List.get_mem ..) (hys _ (List.get_mem ..)) (h.2 i hi' hi)
    | _ => simp [sameBy] at h
  | @dict es n hkeys hvalues hh hne _ ih =>
    cases hb with
    | @dict fs m hkeys' hvalues' hh' hne' =>
      rw [sameBy, Bool.and_eq_true, beq_iff_eq, sameEntries_iff peers hkeys hvalues] at h
      rw [sameBy, Bool.and_eq_true, beq_iff_eq, sameEntries_iff peers hkeys' hvalues']
      obtain ⟨hlength, hentries⟩ := h
      have hatom : ∀ e ∈ es, ∃ f ∈ fs, f.1.atom? = e.1.atom? ∧ sameBy peers e.2 f.2 := by
        intro e he
        obtain ⟨f, hf, hkey, hvalue⟩ := hentries e he
        obtain ⟨x, hx⟩ := (hkeys e he).exists_atom? (hh e he)
        exact ⟨f, hf, by rw [hx, (sameBy_iff_of_atom? peers hx (hkeys' f hf)).1 hkey], hvalue⟩
      refine ⟨hlength.symm, fun f hf ↦ ?_⟩
      obtain ⟨e, he, hef⟩ := exists_atom?_of_length (nodup_atoms hkeys hh hne) hlength
        (fun e he ↦ (hatom e he).imp fun f hf ↦ ⟨hf.1, hf.2.1⟩) hf
      obtain ⟨g, hg, hge, hvalue⟩ := hatom e he
      -- The partner of the entry with this key is the entry one began with, as no other has the
      -- key.
      obtain rfl : g = f :=
        List.inj_on_of_nodup_map (nodup_atoms hkeys' hh' hne') hg hf (hge.trans hef)
      obtain ⟨x, hx⟩ := (hkeys' g hg).exists_atom? (hh' g hg)
      exact ⟨e, he, (sameBy_iff_of_atom? peers hx (hkeys e he)).2 (hge ▸ hx),
        ih e he (hvalues' g hg) hvalue⟩
    | _ => simp [sameBy] at h
  | _ =>
    have hatom := (sameBy_iff_of_atom? peers rfl hb).1 h
    exact (sameBy_iff_of_atom? peers hatom (by constructor)).2 rfl

theorem IsData.sameBy_trans (ha : a.IsData) (hb : b.IsData) (hc : c.IsData) (hab : sameBy peers a b)
    (hbc : sameBy peers b c) : sameBy peers a c := by
  induction ha generalizing b c with
  | @list xs n hxs ih =>
    cases hb with
    | @list ys m hys =>
      cases hc with
      | @list zs k hzs =>
        rw [sameBy, sameItems_iff peers hxs, List.forall₂_iff_get] at hab
        rw [sameBy, sameItems_iff peers hys, List.forall₂_iff_get] at hbc
        rw [sameBy, sameItems_iff peers hxs, List.forall₂_iff_get]
        refine ⟨hab.1.trans hbc.1, fun i hi hi' ↦ ?_⟩
        have hy : i < ys.length := hab.1 ▸ hi
        exact ih _ (List.get_mem ..) (hys _ (List.get_mem ..))
          (hzs _ (List.get_mem ..)) (hab.2 i hi hy)
          (hbc.2 i hy hi')
      | _ => simp [sameBy] at hbc
    | _ => simp [sameBy] at hab
  | @dict es n hkeys hvalues hh hne _ ih =>
    cases hb with
    | @dict fs m hkeys' hvalues' hh' hne' =>
      cases hc with
      | @dict gs k hkeys'' hvalues'' hh'' hne'' =>
        rw [sameBy, Bool.and_eq_true, beq_iff_eq, sameEntries_iff peers hkeys hvalues] at hab
        rw [sameBy, Bool.and_eq_true, beq_iff_eq, sameEntries_iff peers hkeys' hvalues'] at hbc
        rw [sameBy, Bool.and_eq_true, beq_iff_eq, sameEntries_iff peers hkeys hvalues]
        refine ⟨hab.1.trans hbc.1, fun e he ↦ ?_⟩
        obtain ⟨f, hf, hkey, hvalue⟩ := hab.2 e he
        obtain ⟨g, hg, hkey', hvalue'⟩ := hbc.2 f hf
        obtain ⟨x, hx⟩ := (hkeys e he).exists_atom? (hh e he)
        have hxf := (sameBy_iff_of_atom? peers hx (hkeys' f hf)).1 hkey
        have hxg := (sameBy_iff_of_atom? peers hxf (hkeys'' g hg)).1 hkey'
        exact ⟨g, hg, (sameBy_iff_of_atom? peers hx (hkeys'' g hg)).2 hxg,
          ih e he (hvalues' f hf) (hvalues'' g hg) hvalue hvalue'⟩
      | _ => simp [sameBy] at hbc
    | _ => simp [sameBy] at hab
  | _ =>
    have hatom := (sameBy_iff_of_atom? peers rfl hb).1 hab
    exact (sameBy_iff_of_atom? peers rfl hc).2 ((sameBy_iff_of_atom? peers hatom hc).1 hbc)

end Value

namespace Store

variable {s : Store} {u v w : Value} {vs ws : List Value}

theorem equal_self (hv : v.IsData) : s.equal v v := by
  rw [equal, Value.equalBy_eq]
  exact hv.sameBy_self _

theorem equal_symm (hv : v.IsData) (hw : w.IsData) (h : s.equal v w) : s.equal w v := by
  rw [equal, Value.equalBy_eq] at h ⊢
  exact hv.sameBy_symm _ hw h

theorem equal_trans (hu : u.IsData) (hv : v.IsData) (hw : w.IsData)
    (huv : s.equal u v) (hvw : s.equal v w) :
    s.equal u w := by
  rw [equal, Value.equalBy_eq] at huv hvw ⊢
  exact hu.sameBy_trans _ hv hw huv hvw

theorem allEqual_cons_iff : s.allEqual (v :: vs) ↔ ∀ w ∈ vs, s.equal v w :=
  List.all_eq_true

/-- All values are equal to the first exactly if any two of them are equal. -/
theorem allEqual_iff (hvs : ∀ v ∈ vs, v.IsData) :
    s.allEqual vs ↔ ∀ v ∈ vs, ∀ w ∈ vs, s.equal v w := by
  cases vs with
  | nil => simp [allEqual]
  | cons u vs =>
    have hu := hvs u List.mem_cons_self
    rw [allEqual_cons_iff]
    refine ⟨fun h v hv w hw ↦ ?_, fun h v hv ↦ h u List.mem_cons_self v (List.mem_cons_of_mem _ hv)⟩
    have hfirst : ∀ v ∈ u :: vs, s.equal u v := by
      rw [List.forall_mem_cons]
      exact ⟨equal_self hu, h⟩
    exact equal_trans (hvs v hv) hu (hvs w hw) (equal_symm hu (hvs v hv) (hfirst v hv))
      (hfirst w hw)

theorem allEqual_append_iff (hv : v.IsData) (hw : w.IsData) (hws : ∀ u ∈ ws, u.IsData) :
    s.allEqual ((v :: vs) ++ (w :: ws)) ↔ s.allEqual (v :: vs) ∧
      s.allEqual (w :: ws) ∧ s.equal v w := by
  rw [List.cons_append, allEqual_cons_iff, allEqual_cons_iff,
    allEqual_cons_iff, List.forall_mem_append, List.forall_mem_cons]
  refine and_congr_right fun _ ↦ ⟨?_, ?_⟩
  · rintro ⟨hvw, hrest⟩
    exact ⟨fun u hu ↦ equal_trans hw hv (hws u hu) (equal_symm hv hw hvw) (hrest u hu), hvw⟩
  · rintro ⟨hrest, hvw⟩
    exact ⟨hvw, fun u hu ↦ equal_trans hv hw (hws u hu) hvw (hrest u hu)⟩

/-- Whether values are all equal does not depend on their order; and two parts, neither of them
empty, are all equal exactly if each part is and their first values are. -/
theorem allEqual_in_any_order (s : Store) :
    (∀ vs ws, (∀ v ∈ vs, v.IsData) → vs.Perm ws → s.allEqual vs = s.allEqual ws) ∧
    ∀ v vs w ws, (∀ u ∈ (v :: vs) ++ (w :: ws), u.IsData) →
      (s.allEqual ((v :: vs) ++ (w :: ws)) ↔ s.allEqual (v :: vs) ∧
        s.allEqual (w :: ws) ∧ s.equal v w) := by
  constructor
  · intro vs ws hvs hperm
    have hws : ∀ w ∈ ws, w.IsData := fun w hw ↦ hvs w (hperm.mem_iff.2 hw)
    rw [Bool.eq_iff_iff, allEqual_iff hvs, allEqual_iff hws]
    simp only [hperm.mem_iff]
  · intro v vs w ws hdata
    have hright : ∀ u ∈ w :: ws, u.IsData := fun u hu ↦ hdata u (List.mem_append_right _ hu)
    exact allEqual_append_iff (hdata v List.mem_cons_self) (hright w List.mem_cons_self)
      fun u hu ↦ hright u (List.mem_cons_of_mem _ hu)

def plainly : Value :=
  .dict [(.text "look", .list [.bool true, .none]), (.int 1, .fatal)]

def otherwise : Value :=
  .dict [(.bool true, .fatal), (.message .look, .list [.int 1, .none])]

theorem plainly_equals_otherwise :
    (∀ v ∈ [plainly, otherwise, plainly], v.IsData) ∧
    ({} : Store).allEqual [otherwise, plainly, plainly] ∧
      ({} : Store).allEqual [plainly, otherwise, plainly] := by
  have hplainly : plainly.IsData := by
    have hlist : (Value.list [.bool true, .none]).IsData :=
      .list (List.forall_mem_cons.2 ⟨.bool _, List.forall_mem_singleton.2 .none⟩)
    exact .dict (List.forall_mem_cons.2 ⟨.text _, List.forall_mem_singleton.2 (.int _)⟩)
      (List.forall_mem_cons.2 ⟨hlist, List.forall_mem_singleton.2 .fatal⟩)
        (by decide) (by decide +kernel)
  have hotherwise : otherwise.IsData := by
    have hlist : (Value.list [.int 1, .none]).IsData :=
      .list (List.forall_mem_cons.2 ⟨.int _, List.forall_mem_singleton.2 .none⟩)
    exact .dict (List.forall_mem_cons.2 ⟨.bool _, List.forall_mem_singleton.2 (.message _)⟩)
      (List.forall_mem_cons.2 ⟨.fatal, List.forall_mem_singleton.2 hlist⟩)
        (by decide) (by decide +kernel)
  have hdata : ∀ v ∈ [plainly, otherwise, plainly], v.IsData := by simp [hplainly, hotherwise]
  have hequal : ({} : Store).allEqual [plainly, otherwise, plainly] := by decide +kernel
  refine ⟨hdata, ?_, hequal⟩
  rw [← (allEqual_in_any_order {}).1 _ _ hdata (.swap ..)]
  exact hequal

end Store

end Fable
