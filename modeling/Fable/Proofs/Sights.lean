import Fable.Proofs.Refusal
import Fable.Proofs.Visibility
import Fable.Proofs.Weight

namespace Fable

structure Record.Legible (r : Record) : Prop where
  ldesc : r.ldesc.isNone ∨ r.ldesc.isText
  fdesc : r.fdesc.isNone ∨ r.fdesc.isText

instance (r : Record) : Decidable r.Legible :=
  decidable_of_iff ((r.ldesc.isNone ∨ r.ldesc.isText) ∧ (r.fdesc.isNone ∨ r.fdesc.isText))
    ⟨fun h ↦ ⟨h.1, h.2⟩, fun h ↦ ⟨h.ldesc, h.fdesc⟩⟩

/-- A line of the description of a place: of an object that is there, above what is in one, and of
an object that is in one. -/
inductive Line
  | itself (x : Value)
  | heading (x : Value)
  | inside (x : Value)

def Line.object? : Line → Option Value
  | itself x | inside x => some x
  | heading _ => none

namespace Store

def Legible (s : Store) : Prop := ∀ e ∈ s.records, e.2.Legible

instance (s : Store) : Decidable s.Legible :=
  inferInstanceAs (Decidable (∀ e ∈ s.records, e.2.Legible))

def nameOf (s : Store) (x : Value) : Value :=
  (s.find? x).elim (.text x.display) Record.name

def isShown (s : Store) (winner x : Value) : Bool :=
  !Value.same x winner && !s.hasFlag x Play.invisibleFlag

def insideLines (s : Store) (x : Value) : List Line :=
  if s.showsInside x && !(s.children x).isEmpty
    then .heading x :: (s.children x).map .inside else []

def linesOf (s : Store) (winner x : Value) : List Line :=
  if s.isShown winner x then
    (if s.hasFlag x Play.undescribedFlag then [] else [.itself x]) ++ s.insideLines x
  else []

def listing (s : Store) (winner : Value) (xs : List Value) : List Line :=
  xs.flatMap (s.linesOf winner)

def longLine (s : Store) (room : Value) : List Value :=
  let text := s.property room (.text "ldesc") .none
  if text.truthy then [text, .text "\n"] else []

/-- The objects that the description of a place tells of. -/
def listed (s : Store) (winner c : Value) : List Value :=
  (s.listing winner (s.children c)).filterMap Line.object?

end Store

def Line.written (s : Store) : Line → List Value
  | itself x =>
    let first := s.property x (.text "fdesc") .none
    if first.truthy && !s.hasFlag x Play.touchedFlag then [first, .text "\n"]
    else [.text "There is a ", s.nameOf x, .text " here.", .text "\n"]
  | heading x => [.text "The ", s.nameOf x, .text " contains:", .text "\n"]
  | inside x => [.text "  A ", s.nameOf x, .text "\n"]

namespace Store

variable {s : Store} {x y c winner : Value}

theorem describe_eq_nameOf (hx : x.IsPlace) : s.describe x = .ok (s.nameOf x) := by
  rcases hx with hx | hx
  · obtain rfl := Value.eq_none_of_isNone hx
    rfl
  · rw [nameOf, find?_eq_lookup? s hx]
    obtain ⟨n, hn⟩ := Value.isText_iff.1 hx
    have hdisplay : x.display = n := by
      cases x <;> cases hn <;> rfl
    rw [describe, hn]
    cases s.lookup? x with
    | none => rw [Option.elim, hdisplay]
    | some r => rfl

theorem Legible.isText_property (hs : s.Legible) {key : Value} {f : Field}
    (hkey : Field.ofKey? key = some f)
    (hf : ∀ r : Record, r.Legible → (r.field f).isNone ∨ (r.field f).isText)
    (hx : (s.property x key .none).truthy) : (s.property x key .none).isText := by
  rw [property] at hx ⊢
  cases hr : s.find? x with
  | none =>
    rw [hr] at hx
    cases hx
  | some r =>
    obtain ⟨e, he, -, rfl⟩ := exists_mem_of_find? s hr
    rw [hr] at hx
    simp only [hkey] at hx ⊢
    by_cases hnone : (e.2.field f).isNone
    · rw [if_pos hnone] at hx
      cases hx
    · rw [if_neg hnone]
      exact (hf e.2 (hs e he)).resolve_left hnone

theorem Tidy.first_isNone (ht : s.Tidy) (hc : c.isText) :
    (s.first c).isNone = (s.children c).isEmpty := by
  rw [first]
  cases h : s.children c with
  | nil => rfl
  | cons x xs =>
    have hx := (ht.of_mem_children hc (x := x) (by simp [h])).1
    exact Value.isNone_eq_false_of_isText hx

end Store

namespace Play

open Runs Game

variable {g : Game}

abbrev Writes (p : Play Unit) (g : Game) (out : List Value) : Prop := p g = .ok () (g.wrote out)

theorem wrote_wrote (g : Game) (vs ws : List Value) :
    (g.wrote vs).wrote ws = g.wrote (vs ++ ws) := by
  simp only [Game.wrote, List.foldl_append]

namespace Writes

theorem nothing (g : Game) : Writes (pure ()) g [] := rfl

theorem bind {p : Play Unit} {f : Unit → Play Unit} {out more : List Value} (hp : Writes p g out)
    (hf : Writes (f ()) (g.wrote out) more) : Writes (p >>= f) g (out ++ more) := by
  rw [Writes, bind_of_ok hp, hf, wrote_wrote]

theorem forM {xs : List Value} {act : Value → Play Unit} {f : Value → List Value}
    (hact : ∀ x ∈ xs, ∀ out, Writes (act x) (g.wrote out) (f x)) :
    Writes (xs.forM act) g (xs.flatMap f) := by
  induction xs generalizing g with
  | nil => exact nothing g
  | cons x xs ih =>
    rw [List.flatMap_cons]
    refine bind (hact x (by simp) []) (ih fun y hy out ↦ ?_)
    rw [wrote_wrote]
    exact hact y (by simp [hy]) _

theorem text_line {v : Value} (hv : v.isText) (g : Game) :
    Writes (tell [v, newline]) g [v, .text "\n"] := by
  refine tell_of_render ?_
  cases v with
  | text s => rfl
  | message m => rfl
  | _ => cases hv

theorem name_line {x : Value} (hx : x.IsPlace) (g : Game) :
    Writes (tell [desc, x, newline]) g [g.store.nameOf x, .text "\n"] := by
  refine tell_of_render ?_
  simp only [Tell.render, Tell.operand, desc, newline, voice, Store.describe_eq_nameOf hx]

/-- A line that names an object in the middle. -/
theorem named_line {x : Value} (hx : x.isText) (before after : String) (g : Game) :
    Writes (tell [.text before, desc, x, .text after, newline]) g
      [.text before, g.store.nameOf x, .text after, .text "\n"] := by
  refine tell_of_render ?_
  simp only [Tell.render, Tell.plain, Tell.operand, desc, newline, voice,
    Store.describe_eq_nameOf (.of_isText hx)]

theorem inner_line {x : Value} (hx : x.isText) (g : Game) :
    Writes (tell [.text "  A ", desc, x, newline]) g ((Line.inside x).written g.store) := by
  refine tell_of_render ?_
  simp only [Tell.render, Tell.plain, Tell.operand, desc, newline, voice,
    Store.describe_eq_nameOf (.of_isText hx)]
  rfl

theorem forEach {container : Value} {xs : List Value}
    (hwalk : g.store.walk container = (xs, .ok ())) {act : Value → Play Unit}
    {f : Value → List Value} (hact : ∀ x ∈ xs, ∀ out, Writes (act x) (g.wrote out) (f x)) :
    Writes (Play.forEach container act) g (xs.flatMap f) := by
  rw [Writes, Play.forEach, get_bind, hwalk]
  dsimp only
  rw [bind_of_ok (forM hact)]
  rfl

theorem listInside {x : Value} (ht : g.store.Tidy) (hx : x.isText) : Writes (Play.listInside x) g
    ((.heading x :: (g.store.children x).map .inside : List Line).flatMap (·.written g.store)) := by
  rw [List.flatMap_cons, List.flatMap_map]
  refine bind (named_line hx _ _ g) (forEach (g := g.wrote _) (ht.walk_eq hx) fun y hy out ↦ ?_)
  exact inner_line (ht.of_mem_children hx hy).1 _

theorem listItself {x : Value} (hs : g.store.Legible) (hx : x.isText) :
    Writes (Play.listItself x) g ((Line.itself x).written g.store) := by
  rw [Writes, Play.listItself, get_bind]
  dsimp only [Line.written]
  by_cases hfirst : (g.store.property x (.text "fdesc") .none).truthy &&
    !g.store.hasFlag x touchedFlag
  · rw [if_pos hfirst, if_pos hfirst]
    refine text_line (hs.isText_property (f := .fdesc) (by decide) (fun _ hr ↦ hr.fdesc) ?_) g
    exact (Bool.and_eq_true_iff.1 hfirst).1
  · rw [if_neg hfirst, if_neg hfirst]
    exact named_line hx _ _ g

theorem listObject {x : Value} (hs : g.store.Legible) (ht : g.store.Tidy) (hx : x.isText) :
    Writes (Play.listObject x) g
      ((g.store.linesOf (g.global "WINNER") x).flatMap (·.written g.store)) := by
  have hinside (out : List Value) :
      Writes (if g.store.showsInside x && !(g.store.first x).isNone then Play.listInside x
      else pure ()) (g.wrote out) ((g.store.insideLines x).flatMap (·.written g.store)) := by
    rw [Store.insideLines, ht.first_isNone hx]
    split
    · exact listInside (g := g.wrote out) ht hx
    · exact nothing _
  rw [Writes, Play.listObject, get_bind, Store.linesOf, Store.isShown]
  split
  · rw [List.flatMap_append]
    cases g.store.hasFlag x undescribedFlag with
    | true => exact hinside []
    | false =>
      rw [if_neg Bool.false_ne_true, List.flatMap_singleton]
      exact bind (listItself hs hx) (hinside _)
  · exact nothing g

/-- The description of a place writes the lines of the objects that are met in it. -/
theorem describeContents {c : Value} {xs : List Value} (hs : g.store.Legible)
    (ht : g.store.Tidy) (hc : c.hashable) (hwalk : g.store.walk c = (xs, .ok ()))
    (hxs : ∀ x ∈ xs, x.isText) : Writes (Play.describeContents c) g
      ((g.store.listing (g.global "WINNER") xs).flatMap (·.written g.store)) := by
  rw [Writes, Play.describeContents, bind_of_ok (demand_of_hashable hc g),
    Store.listing, List.flatMap_assoc]
  exact forEach hwalk fun x hx out ↦ listObject (g := g.wrote out) hs ht (hxs x hx)

end Writes

theorem property_of_hashable {x key : Value} (hx : x.hashable) (hkey : key.hashable)
    (default : Value) (g : Game) :
    property x key default g = .ok (g.store.property x key default) g := by
  rw [property, bind_of_ok (demand_of_hashable hx g), get_bind]
  cases hr : g.store.find? x with
  | none =>
    rw [Store.property, hr]
    rfl
  | some r =>
    dsimp only
    split
    · rw [bind_of_ok (demand_of_hashable hkey g)]
      rfl
    · rfl

/-- The description of the room comes to its end, and the room is marked. -/
theorem describeRoom_of_walk {xs : List Value} (hs : g.store.Legible) (ht : g.store.Tidy)
    (hhere : (g.global "HERE").hashable) (hwalk : g.store.walk (g.global "HERE") = (xs, .ok ()))
    (hxs : ∀ x ∈ xs, x.isText) :
    describeRoom false g = onStore (Store.setFlag (g.global "HERE") touchedFlag)
      (g.wrote (g.store.longLine (g.global "HERE") ++
        (g.store.listing (g.global "WINNER") xs).flatMap (·.written g.store))) := by
  have hcontents (out : List Value) :=
    Writes.describeContents (g := g.wrote out) (c := g.global "HERE") hs ht hhere hwalk hxs
  rw [describeRoom, get_bind]
  dsimp only
  rw [Bool.not_false, if_pos rfl, bind_of_ok (property_of_hashable hhere (by rfl) _ g),
    ← wrote_wrote, Store.longLine]
  split
  · next htext =>
    have hldesc := hs.isText_property (f := .ldesc) (by decide) (fun _ hr ↦ hr.ldesc) htext
    rw [bind_of_ok (Writes.text_line hldesc g)]
    exact bind_of_ok (hcontents _) _
  · exact bind_of_ok (hcontents []) _

end Play

namespace Store

variable {s : Store} {x y z c winner : Value}

theorem hasFlag_congr (hx : x.isText) (h : x.string? = y.string?) (flag : Value) :
    s.hasFlag x flag = s.hasFlag y flag := by
  rw [hasFlag, hasFlag, find?_congr s hx h]

theorem showsInside_congr (hx : x.isText) (h : x.string? = y.string?) :
    s.showsInside x = s.showsInside y := by
  rw [showsInside, showsInside, hasFlag_congr hx h, hasFlag_congr hx h]

theorem isShown_congr (hx : x.isText) (h : x.string? = y.string?) :
    s.isShown winner x = s.isShown winner y := by
  have hy : y.isText := by rwa [Value.isText, ← h]
  rw [isShown, isShown, hasFlag_congr hx h, Value.same_eq_of_isText_left hx,
    Value.same_eq_of_isText_left hy, h]

theorem parent_congr_of_isText (hx : x.isText) (h : x.string? = y.string?) :
    s.parent x = s.parent y :=
  parent_congr s (find?_congr s hx h)

theorem objects_linesOf (s : Store) (winner x : Value) :
    (s.linesOf winner x).filterMap Line.object? =
    if s.isShown winner x then
      (if s.hasFlag x Play.undescribedFlag then [] else [x]) ++ if s.showsInside x
      then s.children x else []
    else [] := by
  have hmap (xs : List Value) : (xs.map Line.inside).filterMap Line.object? = xs := by
    rw [List.filterMap_map]
    exact List.filterMap_some
  have hinside : (s.insideLines x).filterMap Line.object? = if s.showsInside x then s.children x
      else [] := by
    rw [insideLines]
    cases s.showsInside x with
    | false => rfl
    | true =>
      cases s.children x with
      | nil => rfl
      | cons y ys => exact hmap (y :: ys)
  rw [linesOf]
  split
  · rw [List.filterMap_append, hinside]
    cases s.hasFlag x Play.undescribedFlag <;> rfl
  · rfl

theorem mem_objects_linesOf_iff :
    y ∈ (s.linesOf winner x).filterMap Line.object? ↔ s.isShown winner x ∧
    (y = x ∧ s.hasFlag x Play.undescribedFlag = false ∨ s.showsInside x ∧ y ∈ s.children x) := by
  rw [objects_linesOf]
  cases s.isShown winner x <;> cases s.hasFlag x Play.undescribedFlag <;>
    cases s.showsInside x <;> simp

theorem listed_eq (s : Store) (winner c : Value) :
    s.listed winner c = (s.children c).flatMap fun x ↦
      (s.linesOf winner x).filterMap Line.object? := by
  rw [listed, listing, List.filterMap_flatMap]

theorem mem_listed_iff : y ∈ s.listed winner c ↔ ∃ x ∈ s.children c, s.isShown winner x ∧
    (y = x ∧ s.hasFlag x Play.undescribedFlag = false ∨ s.showsInside x ∧ y ∈ s.children x) := by
  simp only [listed_eq, List.mem_flatMap, mem_objects_linesOf_iff]

theorem Tidy.visible_of_mem_listed (ht : s.Tidy) (hc : c.isText) (hy : y ∈ s.listed winner c) :
    s.visible y c := by
  obtain ⟨x, hx, -, ⟨rfl, -⟩ | ⟨hopen, hyx⟩⟩ := mem_listed_iff.1 hy
  · obtain ⟨-, -, hparent⟩ := ht.of_mem_children hc hx
    refine visible_iff.2 ⟨Value.isNone_eq_false_of_isText (by rwa [Value.isText, hparent]), .inl ?_⟩
    rw [Value.same_eq_of_isText _ hc, hparent, beq_self_eq_true]
  · obtain ⟨hxt, -, hparent⟩ := ht.of_mem_children hc hx
    obtain ⟨-, -, houter⟩ := ht.of_mem_children hxt hyx
    have hpt : (s.parent y).isText := by rwa [Value.isText, houter]
    refine visible_iff.2 ⟨Value.isNone_eq_false_of_isText hpt, .inr ⟨?_, ?_⟩⟩
    · rw [parent_congr_of_isText hpt houter, Value.same_eq_of_isText _ hc,
        hparent, beq_self_eq_true]
    · rwa [showsInside_congr hpt houter]

/-- What is in an object that is in the place is not in the place, as nothing is inside itself. -/
theorem Nested.ne_of_mem_children (hn : s.Nested) (ht : s.Tidy)
    (hc : c.isText) (hx : x ∈ s.children c) (hy : y ∈ s.children x)
    (hz : (s.parent z).string? = c.string?) : y.string? ≠ z.string? := by
  intro he
  obtain ⟨hxt, -, hxc⟩ := ht.of_mem_children hc hx
  obtain ⟨hyt, -, hyx⟩ := ht.of_mem_children hxt hy
  rw [← parent_congr_of_isText hyt he, hyx] at hz
  refine hn.not_inside_self hxt ⟨0, ?_⟩
  rw [Function.iterate_one, Value.same_eq_of_isText _ hxt, hxc, hz, beq_self_eq_true]

theorem Tidy.objects_linesOf_pairwise (ht : s.Tidy) (hx : x.isText)
    (hapart : ∀ y ∈ s.children x, x.string? ≠ y.string?) :
    ((s.linesOf winner x).filterMap Line.object?).Pairwise fun y z ↦ ¬ Value.same y z := by
  rw [objects_linesOf]
  split
  · refine List.pairwise_append.2 ⟨?_, ?_, fun y hy z hz ↦ ?_⟩
    · split <;> simp
    · split
      · exact ht.children_pairwise x
      · exact .nil
    · obtain rfl : y = x := by split at hy <;> simp_all
      have hzy : z ∈ s.children y := by split at hz <;> simp_all
      rw [Value.same_eq_of_isText_left hx, beq_iff_eq]
      exact hapart z hzy
  · exact .nil

theorem Reachable.listed_pairwise (hr : Reachable s) (hc : c.isText) :
    (s.listed winner c).Pairwise fun x y ↦ ¬ Value.same x y := by
  have ht := hr.tidy
  have hself {x : Value} (hx : x ∈ s.children c) := (ht.of_mem_children hc hx).1
  have hapart {x y z : Value} (hx : x ∈ s.children c) (hy : y ∈ s.children x)
      (hz : z ∈ s.children c) :=
    hr.nested.ne_of_mem_children ht hc hx hy (ht.of_mem_children hc hz).2.2
  rw [listed_eq, List.pairwise_flatMap]
  refine ⟨fun x hx ↦ ht.objects_linesOf_pairwise (hself hx) fun y hy ↦ (hapart hx hy hx).symm,
    (ht.children_pairwise c).imp_of_mem fun {x x'} hx hx' hne y hy y' hy' ↦ ?_⟩
  rw [Value.same_eq_of_isText _ (hself hx'), beq_iff_eq] at hne
  -- Each of the two is one of those that are there or is in it.
  rcases (mem_objects_linesOf_iff.1 hy).2 with ⟨rfl, -⟩ | ⟨-, hy⟩ <;>
    rcases (mem_objects_linesOf_iff.1 hy').2 with ⟨rfl, -⟩ | ⟨-, hy'⟩
  · rwa [Value.same_eq_of_isText _ (hself hx'), beq_iff_eq]
  · rw [Value.same_eq_of_isText_left (hself hx), beq_iff_eq]
    exact (hapart hx' hy' hx).symm
  · rw [Value.same_eq_of_isText _ (hself hx'), beq_iff_eq]
    exact hapart hx hy hx'
  · obtain ⟨hyt, -, hyx⟩ := ht.of_mem_children (hself hx) hy
    obtain ⟨hyt', -, hyx'⟩ := ht.of_mem_children (hself hx') hy'
    rw [Value.same_eq_of_isText_left hyt, beq_iff_eq]
    intro he
    rw [parent_congr_of_isText hyt he, hyx'] at hyx
    exact hne hyx.symm

/-- What is visible from a place and may be told of is told of, unless what it is in is not. -/
theorem Reachable.isAmong_listed (hr : Reachable s) (hc : c.isText)
    (hy : y.isText) (hv : s.visible y c) (hshown : s.isShown winner y)
    (hflag : s.hasFlag y Play.undescribedFlag = false)
    (hin : Value.same (s.parent y) c ∨ s.isShown winner (s.parent y)) :
    y.isAmong (s.listed winner c) := by
  have ht := hr.tidy
  have hp := hr.nested.placed
  have hfind {p x : Value} (hp' : p.isText) (hx : x.isText) (hd : s.isDefined x)
      (h : Value.same (s.parent x) p) :
      ∃ z ∈ s.children p, x.string? = z.string? := by
    obtain ⟨z, hz, halike⟩ :=
      List.any_eq_true.1 ((ht.same_parent_iff hp hx hd (.of_isText hp')).1 h)
    rw [Value.alike_eq_of_isText_left hx, beq_iff_eq] at halike
    exact ⟨z, hz, halike⟩
  have hamong {z : Value} (hz : z ∈ s.listed winner c) (he : y.string? = z.string?) :
      y.isAmong (s.listed winner c) := by
    refine List.any_eq_true.2 ⟨z, hz, ?_⟩
    rw [Value.alike_eq_of_isText_left hy, he, beq_self_eq_true]
  have hdirect (h : Value.same (s.parent y) c) : y.isAmong (s.listed winner c) := by
    obtain ⟨z, hz, he⟩ := hfind hc hy (isDefined_of_visible s hv) h
    refine hamong (mem_listed_iff.2 ⟨z, hz, ?_, .inl ⟨rfl, ?_⟩⟩) he
    · rwa [← isShown_congr hy he]
    · rwa [← hasFlag_congr hy he]
  obtain ⟨hsome, h | ⟨h, hopen⟩⟩ := visible_iff.1 hv
  · exact hdirect h
  · rcases hin with hin | hin
    · exact hdirect hin
    · have hpt : (s.parent y).isText := (hp.parent (.of_isText hy)).isText_iff_ne.2 hsome
      have houter := Value.isNone_eq_false_of_same h (Value.isNone_eq_false_of_isText hc)
      obtain ⟨b, hb, hbe⟩ := hfind hc hpt (isDefined_of_parent s houter) h
      have hbt := (ht.of_mem_children hc hb).1
      have hyb : Value.same (s.parent y) b := by
        rw [Value.same_eq_of_isText _ hbt, hbe, beq_self_eq_true]
      obtain ⟨z, hz, he⟩ := hfind hbt hy (isDefined_of_visible s hv) hyb
      refine hamong (mem_listed_iff.2 ⟨b, hb, ?_, .inr ⟨?_, hz⟩⟩) he
      · rwa [← isShown_congr hpt hbe]
      · rwa [← showsInside_congr hpt hbe]

end Store

namespace Play

/-- The description of a place comes to its end, and nothing changes but that the lines of what is
there are written, in order. All objects that are told of are visible from the place, none of them
is told of twice, and those that are visible are told of, but for the winner, what is invisible or
not to be described, and what is in such an object, though not if that is the place. -/
theorem describeContents_tells_visible {g : Game} (hr : g.store.Reachable)
    (hs : g.store.Legible) {c : Value} (hc : c.isText) :
    describeContents c g = .ok () (g.wrote
        ((g.store.listing (g.global "WINNER") (g.store.children c)).flatMap (·.written g.store))) ∧
      (∀ y ∈ g.store.listed (g.global "WINNER") c, g.store.visible y c) ∧
      (g.store.listed (g.global "WINNER") c).Pairwise (fun x y ↦ ¬ Value.same x y) ∧
      ∀ y, y.isText → g.store.visible y c → g.store.isShown (g.global "WINNER") y →
        g.store.hasFlag y undescribedFlag = false →
        (Value.same (g.store.parent y) c ∨ g.store.isShown (g.global "WINNER") (g.store.parent y)) →
        y.isAmong (g.store.listed (g.global "WINNER") c) := by
  have ht := hr.tidy
  have hxs : ∀ x ∈ g.store.children c, x.isText := fun x hx ↦ (ht.of_mem_children hc hx).1
  exact ⟨Writes.describeContents hs ht (Value.hashable_of_isText hc) (ht.walk_eq hc) hxs,
    fun y hy ↦ ht.visible_of_mem_listed hc hy, hr.listed_pairwise hc,
    fun y hy hv hshown hflag hin ↦ hr.isAmong_listed hc hy hv hshown hflag hin⟩

def atticCalls : List Store.Call := [
  .define (.text "PLAYER") { parent := .text "ATTIC" },
  .define (.text "LAMP") { parent := .text "ATTIC", fields := [(.fdesc, .text "A lamp burns.")] },
  .define (.text "BOX")
    { parent := .text "ATTIC", flags := .list [.text "OPENBIT", .text "NDESCBIT"] },
  .define (.text "GHOST") { parent := .text "ATTIC", flags := .list [.text "INVISIBLE"] },
  .define (.text "COIN") { parent := .text "BOX" }]

def attic : Game where
  store := .history atticCalls
  globals := [(.text "WINNER", .text "PLAYER")]

theorem attic_described :
    attic.store.Reachable ∧ attic.store.Legible ∧ (Value.text "ATTIC").isText ∧
      ∃ out, describeContents (.text "ATTIC") attic = .ok ()
        (attic.wrote out) ∧ out.map Value.string? =
        [some "A lamp burns.", some "\n", some "The ", some "BOX",
          some " contains:", some "\n", some "  A ",
          some "COIN", some "\n"] := by
  have hr : attic.store.Reachable := by
    apply Store.reachable_history
    simp only [atticCalls, List.mem_cons, List.not_mem_nil, or_false]
    rintro c (rfl | rfl | rfl | rfl | rfl)
    all_goals exact ⟨rfl, .of_isText rfl, ⟨_, rfl⟩, ⟨_, rfl⟩⟩
  have hs : attic.store.Legible := by decide +kernel
  exact ⟨hr, hs, rfl, _, (describeContents_tells_visible hr hs rfl).1, by decide +kernel⟩

end Play

end Fable
