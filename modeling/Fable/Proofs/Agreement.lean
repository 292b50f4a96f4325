import Fable.Proofs.RoundTrip

namespace Fable

namespace Table

variable {α β : Type}

theorem map_insert (t : Table α) (k : Value) (a : α) (f : α → β) :
    (t.insert k a).map (fun e ↦ (e.1, f e.2)) = insert (t.map fun e ↦ (e.1, f e.2)) k (f a) := by
  induction t with
  | nil => rfl
  | cons e t ih =>
    rw [insert, List.map_cons, insert]
    split
    · rfl
    · rw [List.map_cons, ih]

theorem ofEntries_concat (es : List (Value × α)) (e : Value × α) :
    ofEntries (es ++ [e]) = (ofEntries es).insert e.1 e.2 := by
  rw [ofEntries, List.foldl_append, List.foldl_cons, List.foldl_nil]
  rfl

theorem map_ofEntries (es : List (Value × α)) (f : α → β) :
    (ofEntries es).map (fun e ↦ (e.1, f e.2)) = ofEntries (es.map fun e ↦ (e.1, f e.2)) := by
  induction es using List.reverseRecOn with
  | nil => rfl
  | append_singleton es e ih =>
    rw [List.map_append, List.map_singleton, ofEntries_concat, ofEntries_concat, map_insert, ih]

/-- Of repeated keys the last one counts. -/
theorem find?_ofEntries {es : List (Value × α)} (h : ∀ e ∈ es, ∃ x, e.1 = .text x) (k : Value) :
    (ofEntries es).find? k = find? es.reverse k := by
  induction es using List.reverseRecOn with
  | nil => rfl
  | append_singleton es e ih =>
    obtain ⟨x, hx⟩ := h e (by simp)
    have htext : e.1.isText := by rw [hx]; rfl
    rw [ofEntries_concat, find?_insert _ htext, ih fun f hf ↦ h f (List.mem_append_left _ hf),
      List.reverse_append, List.reverse_singleton, List.singleton_append, find?_cons,
      Value.alike_eq_of_isText_left htext]
    simp only [beq_iff_eq]

theorem find?_map (t : Table α) (f : α → β) (k : Value) :
    find? (t.map fun e ↦ (e.1, f e.2)) k = (find? t k).map f := by
  induction t with
  | nil => rfl
  | cons e t ih =>
    rw [List.map_cons, find?_cons, find?_cons, ih]
    split <;> rfl

/-- If keys do not repeat, it makes no difference from which end they are looked for. -/
theorem Named.find?_reverse {t : Table α} (h : t.Named) (k : Value) :
    find? t.reverse k = find? t k := by
  rw [← find?_ofEntries (fun e he ↦ h.exists_text he), h.ofEntries_eq]

end Table

namespace Json

def filed (v : Value) : Value := settled (merged v)

def filedEntries (es : List (Value × Value)) : Table Value :=
  Table.ofEntries (es.map fun e ↦ (e.1, filed e.2))

theorem filed_list (xs : List Value) (k : Nat) : filed (.list xs k) = .list (xs.map filed) := by
  rw [filed, merged_list, settled_list, List.map_map]
  rfl

theorem filed_dict (es : List (Value × Value)) (k : Nat) :
    filed (.dict es k) = .dict (filedEntries es) := by
  rw [filed, merged_dict, settled_dict, List.map_map]
  rfl

theorem merged_settled {v : Value} (h : Written v) : merged (settled v) = filed v := by
  induction h with
  | list _ ih =>
    rw [settled_list, merged_list, filed_list, List.map_map]
    exact congrArg (Value.list · 0) (List.map_congr_left ih)
  | @dict es _ _ ih =>
    rw [settled_dict, merged_dict, filed_dict, filedEntries, Table.map_ofEntries, List.map_map]
    refine congrArg (fun es ↦ Value.dict (Table.ofEntries es) 0) (List.map_congr_left fun e he ↦ ?_)
    exact Prod.ext rfl (ih e he)
  | _ => rfl

variable {origin : Origin} {stamp : Nat}

/-- What is wrong with the first member of an object is wrong with the object. -/
theorem value_of_member_error {n : Nat} {cs rest : List Char} {name : String} {t : Trouble}
    (hname : string origin ('"' :: cs) cs = .ok (name, ':' :: rest))
    (ht : value origin stamp n (skip rest) = .error t) :
    value origin stamp (n + 2) ('\x7b' :: '"' :: cs) = .error t := by
  have hskip : ∀ ds, skip ('"' :: ds) = '"' :: ds ∧ skip (':' :: ds) = ':' :: ds :=
    fun ds ↦ ⟨rfl, rfl⟩
  rw [value_brace, enter, (hskip cs).1]
  dsimp only
  rw [if_neg (by decide), members_quote, hname]
  dsimp only [Except.bind]
  rw [(hskip rest).2]
  dsimp only
  rw [if_pos rfl, ht]

theorem scalar_of_ones (origin : Origin) (stamp : Nat) {k : Nat}
    (hk : Text.mostDigits ≤ k) (rest : List Char) :
    scalar origin stamp (List.replicate (k + 1) '1' ++ '\x7d' :: rest) =
      trouble .digits (List.replicate (k + 1) '1' ++ '\x7d' :: rest) := by
  have hdigits : ∀ c ∈ List.replicate k '1', c.isDigit = true := by
    intro c hc
    rw [List.eq_of_mem_replicate hc]
    rfl
  have hinteger : integer? ('1' :: (List.replicate k '1' ++ '\x7d' :: rest)) =
      some ('1' :: List.replicate k '1', '\x7d' :: rest) := by
    rw [integer?, if_neg (by decide), if_pos (by decide), List.takeWhile_append_of_pos hdigits,
      List.dropWhile_append_of_pos hdigits]
    simp
  have hnumeral : numeral? ('1' :: (List.replicate k '1' ++ '\x7d' :: rest)) =
      some ({ negative := false, integer := '1' :: List.replicate k '1', fraction := none,
              exponent := none }, '\x7d' :: rest) := by
    rw [numeral?_eq, show minus ('1' :: (List.replicate k '1' ++ '\x7d' :: rest)) =
      (false, _) from rfl, hinteger]
    rfl
  rw [List.replicate_succ, List.cons_append, scalar, hnumeral]
  dsimp only
  rw [if_pos]
  cases origin <;> simp [Numeral.tooLong, Numeral.isWhole] <;> omega

def globalOfOnes (k : Nat) : String :=
  String.ofList (['\x7b', '"', 'g', 'l', 'o', 'b', 'a', 'l', 's', '"', ':',
    '\x7b', '"', 'A', '"', ':'] ++
    (List.replicate (k + 1) '1' ++ ['\x7d', '\x7d']))

theorem exists_readAll_globalOfOnes (origin : Origin) (stamp : Nat) {k : Nat}
    (hk : Text.mostDigits ≤ k) :
    ∃ m, readAll origin stamp (globalOfOnes k) = .error ⟨.digits, m⟩ := by
  have hscalar := scalar_of_ones origin stamp hk ['\x7d']
  have hdigit : List.replicate (k + 1) '1' ++ ['\x7d', '\x7d'] =
      '1' :: (List.replicate k '1' ++ ['\x7d', '\x7d']) := rfl
  rw [globalOfOnes, readAll, String.toList_ofList]
  rw [hdigit] at hscalar ⊢
  generalize List.replicate k '1' ++ ['\x7d', '\x7d'] = ds at hscalar ⊢
  obtain ⟨n, hn⟩ : ∃ n,
      2 * (['\x7b', '"', 'g', 'l', 'o', 'b', 'a', 'l', 's', '"', ':', '\x7b', '"', 'A', '"', ':'] ++
      '1' :: ds).length + 2 = n + 5 := ⟨2 * ds.length + 31, by simp; omega⟩
  have hvalue : value origin stamp (n + 1) (skip ('1' :: ds)) = trouble .digits ('1' :: ds) := by
    rw [show skip ('1' :: ds) = '1' :: ds from rfl, value_of_scalar (by decide), hscalar]
  have hname :
      string origin ('"' :: 'A' :: '"' :: ':' :: '1' :: ds) ('A' :: '"' :: ':' :: '1' :: ds) =
      .ok ("A", ':' :: '1' :: ds) := by
    cases origin <;> rfl
  have hinner :
      value origin stamp (n + 3) (skip ('\x7b' :: '"' :: 'A' :: '"' :: ':' :: '1' :: ds)) =
      trouble .digits ('1' :: ds) := value_of_member_error hname hvalue
  have hglobals (cs : List Char) :
      string origin ('"' :: 'g' :: 'l' :: 'o' :: 'b' :: 'a' :: 'l' :: 's' :: '"' :: ':' :: cs)
      ('g' :: 'l' :: 'o' :: 'b' :: 'a' :: 'l' :: 's' :: '"' :: ':' :: cs) =
        .ok ("globals", ':' :: cs) := by
    cases origin <;> rfl
  have houter := value_of_member_error (hglobals _) hinner
  refine ⟨('1' :: ds).length, ?_⟩
  dsimp only
  rw [hn, if_neg (by simp)]
  exact congrArg (Except.bind · _) houter

end Json

namespace World

open Json (Written filed filedEntries merged settled)

open scoped Relator

namespace Checked

variable {α β γ δ : Type} {R : α → β → Prop} {S : γ → δ → Prop}

/-- Both parts are in order and correspond to each other, or neither is in order. -/
inductive Agree (R : α → β → Prop) : Checked α → Checked β → Prop
  | ok {a : α} {b : β} : R a b → Agree R (.ok a) (.ok b)
  | error (es es' : List Issue) : Agree R (.error es) (.error es')

theorem Agree.mono {R' : α → β → Prop} {x : Checked α} {y : Checked β} (h : Agree R x y)
    (hR : ∀ a b, R a b → R' a b) : Agree R' x y := by
  cases h with
  | ok h => exact .ok (hR _ _ h)
  | error es es' => exact .error es es'

theorem Agree.of_ne_ok {x : Checked α} {y : Checked β} (hx : ∀ a, x ≠ .ok a) (hy : ∀ b, y ≠ .ok b) :
    Agree R x y := by
  cases x with
  | ok a => exact absurd rfl (hx a)
  | error es =>
    cases y with
    | ok b => exact absurd rfl (hy b)
    | error es' => exact .error es es'

theorem Agree.map {x : Checked α} {y : Checked β} (h : Agree R x y) {f : α → γ} {g : β → δ}
    (hfg : (R ⇒ S) f g) : Agree S (x.map f) (y.map g) := by
  cases h with
  | ok h => exact .ok (hfg h)
  | error es es' => exact .error es es'

theorem Agree.both {ε ζ : Type} {T : ε → ζ → Prop} {x : Checked α} {y : Checked β}
    {x' : Checked γ} {y' : Checked δ} (h : Agree R x y) (h' : Agree S x' y') {f : α → γ → ε}
    {g : β → δ → ζ} (hfg : (R ⇒ S ⇒ T) f g) :
    Agree T (Checked.both f x x') (Checked.both g y y') := by
  cases h with
  | ok h =>
    cases h' with
    | ok h' => exact .ok (hfg h h')
    | error => exact .error _ _
  | error =>
    cases h' with
    | ok => exact .error _ _
    | error => exact .error _ _

theorem Agree.apply {x : Checked (α → γ)} {y : Checked (β → δ)} {x' : Checked α} {y' : Checked β}
    (h : Agree (R ⇒ S) x y) (h' : Agree R x' y') : Agree S (x.apply x') (y.apply y') :=
  h.both h' fun _ _ hfg _ _ hab ↦ hfg hab

theorem Agree.all {cs : List (Checked α)} {ds : List (Checked β)}
    (h : List.Forall₂ (Agree R) cs ds) :
    Agree (List.Forall₂ R) (Checked.all cs) (Checked.all ds) := by
  induction h with
  | nil => exact .ok .nil
  | cons h _ ih => exact h.both ih fun _ _ hab _ _ hall ↦ .cons hab hall

end Checked

open Checked (Agree)

variable {α β : Type} {R : α → β → Prop}

def Agrees (R : α → β → Prop) (check : Check α) (check' : Check β) : Prop :=
  ∀ v, Written v → ∀ path path', Agree R (check path v) (check' path' (filed v))

theorem agrees_checkText : Agrees Eq checkText checkText := by
  intro v hv path path'
  cases hv with
  | text s => exact .ok rfl
  | list _ => rw [Json.filed_list]; exact .error _ _
  | dict _ _ => rw [Json.filed_dict]; exact .error _ _
  | _ => exact .error _ _

theorem isNone_filed {v : Value} (hv : Written v) : (filed v).isNone = v.isNone := by
  cases hv with
  | list _ => rw [Json.filed_list]; rfl
  | dict _ _ => rw [Json.filed_dict]; rfl
  | _ => rfl

theorem agrees_checkOptional : Agrees Eq checkOptional checkOptional := by
  intro v hv path path'
  rw [checkOptional, checkOptional, isNone_filed hv]
  split
  · exact .ok rfl
  · exact (agrees_checkText v hv path path').map fun _ _ h ↦ congrArg some h

theorem agrees_checkWhole : Agrees Eq checkWhole checkWhole := by
  have hfloat (path path' : List Step) (x : Float) :
      Agree Eq (checkFloat path x) (checkFloat path' x) := by
    unfold checkFloat
    split
    · exact .error _ _
    · exact .error _ _
    · split
      · split
        · exact .ok rfl
        · exact .error _ _
      · exact .error _ _
  have htext (path path' : List Step) (s : String) :
      Agree Eq (checkWholeText path s) (checkWholeText path' s) := by
    unfold checkWholeText
    split
    · exact .error _ _
    · split
      · exact .ok rfl
      · exact .error _ _
  intro v hv path path'
  cases hv with
  | none => exact .error _ _
  | bool b => exact .ok rfl
  | int n => exact .ok rfl
  | float x => exact hfloat path path' x
  | nan n => exact hfloat path path' (0 / 0)
  | text s => exact htext path path' s
  | list _ => rw [Json.filed_list]; exact .error _ _
  | dict _ _ => rw [Json.filed_dict]; exact .error _ _

theorem agrees_checkList {check : Check α} {check' : Check β}
    (h : Agrees R check check') (form form' : Form) :
    Agrees (List.Forall₂ R) (checkList form check) (checkList form' check') := by
  intro v hv path path'
  cases hv with
  | @list xs hxs =>
    rw [Json.filed_list]
    refine Agree.all (List.forall₂_iff_get.2 ⟨by simp, fun i hi hi' ↦ ?_⟩)
    simp only [List.get_eq_getElem, List.getElem_mapIdx, List.getElem_map]
    exact h _ (hxs _ (List.getElem_mem _)) _ _
  | dict _ _ => rw [Json.filed_dict]; exact .error _ _
  | _ => exact .error _ _

section
variable {es : List (Value × Value)} (hkeys : ∀ e ∈ es, ∃ x, e.1 = .text x)

include hkeys

theorem named_filedEntries : (filedEntries es).Named :=
  Table.named_ofEntries (List.forall_mem_map.2 hkeys)

theorem given?_filedEntries (name : String) :
    given? (filedEntries es) name = (given? es name).map filed := by
  have hmap : ∀ e ∈ es.map fun e ↦ (e.1, filed e.2), ∃ x, e.1 = .text x :=
    List.forall_mem_map.2 hkeys
  rw [given?, given?, (named_filedEntries hkeys).find?_reverse, filedEntries,
    Table.find?_ofEntries hmap, ← List.map_reverse, Table.find?_map]

theorem agree_fieldOr (name : String) {check : Check α} {check' : Check β}
    {a : α} {b : β} (hab : R a b)
    (h : ∀ v, given? es name = some v → ∀ path path',
      Agree R (check path v) (check' path' (filed v))) (path path' : List Step) :
    Agree R (World.fieldOr check a path es name)
      (World.fieldOr check' b path' (filedEntries es) name) := by
  rw [World.fieldOr, World.fieldOr, given?_filedEntries hkeys]
  cases hv : given? es name with
  | none => exact .ok hab
  | some v => exact h v hv _ _

theorem agree_fieldRequired (name : String) {check : Check α} {check' : Check β}
    (h : ∀ v, given? es name = some v → ∀ path path',
      Agree R (check path v) (check' path' (filed v)))
    (path path' : List Step) :
    Agree R (World.fieldRequired check path es name)
      (World.fieldRequired check' path' (filedEntries es) name) := by
  rw [World.fieldRequired, World.fieldRequired, given?_filedEntries hkeys]
  cases hv : given? es name with
  | none => exact .error _ _
  | some v => exact h v hv _ _

omit hkeys

theorem Agrees.of_given? {check : Check α} {check' : Check β} (h : Agrees R check check')
    (hes : ∀ e ∈ es, Written e.2) {name : String} :
    ∀ v, given? es name = some v → ∀ path path', Agree R (check path v)
      (check' path' (filed v)) := by
  intro v hv path path'
  obtain ⟨e, he, rfl⟩ := exists_mem_of_given? hv
  exact h _ (hes e he) path path'

end

def mergedTable (t : Table Value) : Table Value := t.map fun e ↦ (e.1, merged e.2)

theorem agrees_checkTable : Agrees (fun t u ↦ mergedTable t = u) (checkTable .json (anything .json))
    (checkTable .value (anything .value)) := by
  intro v hv path path'
  cases hv with
  | @dict es hkeys hes =>
    rw [Json.filed_dict, checkTable_eq_ok .json (anything .json) settled hkeys fun _ _ _ ↦ rfl,
      checkTable_of_named (named_filedEntries hkeys)]
    refine .ok ?_
    rw [mergedTable, filedEntries, Table.map_ofEntries, List.map_map]
    refine congrArg Table.ofEntries (List.map_congr_left fun e he ↦ ?_)
    exact Prod.ext rfl (Json.merged_settled (hes e he))
  | list _ => rw [Json.filed_list]; exact .error _ _
  | _ => exact .error _ _

end World

end Fable
