import Fable.Proofs.Installation
import Mathlib.Data.Finset.Sort
import Mathlib.Data.String.Basic

namespace Fable

section

variable {ε α β : Type} {x : Except ε α} {b : β}

theorem exists_of_map_ok {f : α → β} (h : x.map f = .ok b) : ∃ a, x = .ok a ∧ f a = b := by
  cases x <;> simp only [Except.map, Except.ok.injEq, reduceCtorEq] at h
  exact ⟨_, rfl, h⟩

theorem of_mapError_ok {ε' : Type} {f : ε → ε'} {a : α} (h : x.mapError f = .ok a) : x = .ok a := by
  cases x <;> simp only [Except.mapError, Except.ok.injEq, reduceCtorEq] at h
  rw [h]

theorem exists_of_bind_ok {f : α → Except ε β} (h : x >>= f = .ok b) :
    ∃ a, x = .ok a ∧ f a = .ok b := by
  cases x <;> simp only [bind, Except.bind, reduceCtorEq] at h
  exact ⟨_, rfl, h⟩

end

def Table.Named {α : Type} (t : Table α) : Prop :=
  ∃ names : List String, names.Nodup ∧ t.keys = names.map .text

namespace Table

variable {α : Type} {t : Table α} {names : List String}

theorem named_nil : Named ([] : Table α) := ⟨[], List.nodup_nil, rfl⟩

theorem Named.exists_text (h : t.Named) {e : Value × α} (he : e ∈ t) : ∃ x, e.1 = .text x := by
  obtain ⟨names, -, hkeys⟩ := h
  obtain ⟨x, -, hx⟩ := List.mem_map.1 (hkeys ▸ List.mem_map_of_mem he : e.1 ∈ names.map .text)
  exact ⟨x, hx.symm⟩

/-- A name that is there keeps its place, another one comes last. -/
theorem keys_insert_text (h : t.keys = names.map .text) (x : String) (a : α) :
    (t.insert (.text x) a).keys = (if x ∈ names then names else names ++ [x]).map .text := by
  have hx : contains t (.text x) ↔ x ∈ names := by
    have hany : contains t (.text x) = t.keys.any fun k ↦ Value.alike k (.text x) := by
      rw [keys, List.any_map]
      rfl
    simp [hany, h]
  rw [keys_insert, h]
  simp only [hx]
  split <;> simp

theorem Named.insert (h : t.Named) (x : String) (a : α) : (t.insert (.text x) a).Named := by
  obtain ⟨names, hnodup, hkeys⟩ := h
  refine ⟨_, ?_, keys_insert_text hkeys x a⟩
  split
  · exact hnodup
  · next hx =>
    exact hnodup.append (List.nodup_singleton x) (by simpa using hx)

theorem named_ofEntries {es : List (Value × α)} (h : ∀ e ∈ es, ∃ x, e.1 = .text x) :
    (ofEntries es).Named := by
  have hfold : ∀ t : Table α, t.Named → (es.foldl (fun t e ↦ t.insert e.1 e.2) t).Named := by
    induction es with
    | nil => exact fun t ht ↦ ht
    | cons e es ih =>
      intro t ht
      obtain ⟨x, hx⟩ := h e List.mem_cons_self
      rw [List.foldl_cons, hx]
      exact ih (fun e he ↦ h e (List.mem_cons_of_mem _ he)) _ (ht.insert x e.2)
  exact hfold [] named_nil

theorem insert_of_notMem (h : t.keys = names.map .text) {x : String} (hx : x ∉ names) (a : α) :
    t.insert (.text x) a = t ++ [(.text x, a)] := by
  induction t generalizing names with
  | nil => rfl
  | cons e t ih =>
    cases names with
    | nil => simp [keys] at h
    | cons y names =>
      obtain ⟨he, ht⟩ : e.1 = .text y ∧ keys t = names.map .text := by simpa [keys] using h
      obtain ⟨hxy, hx⟩ : x ≠ y ∧ x ∉ names := by simpa using hx
      have hyx : ¬ (y == x) = true := by simpa using fun hyx ↦ hxy hyx.symm
      rw [insert, he, Value.alike_text, Value.same_text, if_neg hyx, ih ht hx, List.cons_append]

theorem foldl_insert_eq (t : Table α) (names : List String)
    (es : List (Value × α)) {rest : List String} (ht : t.keys = names.map .text)
    (hes : keys es = rest.map .text) (hnodup : (names ++ rest).Nodup) :
    es.foldl (fun t e ↦ t.insert e.1 e.2) t = t ++ es := by
  induction es generalizing t names rest with
  | nil => simp
  | cons e es ih =>
    cases rest with
    | nil => simp [keys] at hes
    | cons x rest =>
      obtain ⟨he, hes⟩ : e.1 = .text x ∧ keys es = rest.map .text := by simpa [keys] using hes
      have hx : x ∉ names := fun hx ↦ List.disjoint_of_nodup_append hnodup hx List.mem_cons_self
      have hnext : keys (t ++ [(.text x, e.2)]) = (names ++ [x]).map .text := by
        simpa [keys] using ht
      rw [List.foldl_cons, he, insert_of_notMem ht hx, ih _ _ hnext hes (by simpa using hnodup),
        List.append_assoc, List.singleton_append, ← he]

/-- Entries whose keys do not repeat are a table as they are. -/
theorem Named.ofEntries_eq (h : t.Named) : ofEntries t = t := by
  obtain ⟨names, hnodup, hkeys⟩ := h
  exact foldl_insert_eq [] [] t rfl hkeys hnodup

end Table

namespace Value

theorem lt_text (a b : String) : lt (.text a) (.text b) = .ok (decide (a < b)) := by
  have hlt : (compare a b == .lt) = decide (a < b) := by
    rw [Bool.eq_iff_iff]
    simp [compare_lt_iff_lt]
  simp [lt, order, orderBy, orderAtoms, float?, int?, string?, Except.map, hlt]

theorem insertSorted_text {a : String} {bs : List String} (ha : a ∉ bs) :
    insertSorted (.text a) (bs.map .text) = .ok ((bs.orderedInsert (· ≤ ·) a).map .text) := by
  induction bs with
  | nil => rfl
  | cons b bs ih =>
    obtain ⟨hab, ha⟩ : a ≠ b ∧ a ∉ bs := by simpa using ha
    rw [List.map_cons, insertSorted, lt_text, List.orderedInsert_cons]
    by_cases hlt : a < b
    · simp [hlt, hlt.le]
      rfl
    · have hle : ¬ a ≤ b := fun hle ↦ hlt (lt_of_le_of_ne hle hab)
      simp [hlt, hle, ih ha]
      rfl

theorem sort_texts {as : List String} (h : as.Nodup) :
    sort (as.map .text) = .ok ((as.insertionSort (· ≤ ·)).map .text) := by
  induction as with
  | nil => rfl
  | cons a as ih =>
    obtain ⟨ha, has⟩ := List.nodup_cons.1 h
    have ha' : a ∉ as.insertionSort (· ≤ ·) := by simpa using ha
    rw [List.map_cons, sort, ih has, List.insertionSort_cons]
    exact insertSorted_text ha'

theorem contains_text {m : Members} {ts : List String} (h : m.items = ts.map .text) (x : String) :
    m.contains (.text x) ↔ x ∈ ts := by
  simp [Members.contains, isAmong, h]

/-- Of the flags that are collected, each is kept once. -/
theorem exists_collect (seen : Members) (ts : List String)
    (hseen : seen.items = ts.map .text) (hts : ts.Nodup) (ss : List String) :
    ∃ (m : Members) (us : List String), collect seen (ss.map .text) = .ok m ∧
      m.items = us.map .text ∧ us.Nodup ∧ ∀ x, x ∈ us ↔ x ∈ ts ∨ x ∈ ss := by
  induction ss generalizing seen ts with
  | nil => exact ⟨seen, ts, rfl, hseen, hts, by simp⟩
  | cons x ss ih =>
    rw [List.map_cons, collect, if_pos (show (text x).hashable = true from rfl)]
    by_cases hx : x ∈ ts
    · have hsame : (seen.insert (.text x)).items = ts.map .text := by
        rw [Members.items_insert, if_pos ((contains_text hseen x).2 hx), hseen]
      obtain ⟨m, us, hm, hitems, hus, hmem⟩ := ih _ _ hsame hts
      refine ⟨m, us, hm, hitems, hus, fun y ↦ ?_⟩
      rw [hmem, List.mem_cons]
      grind
    · have hmore : (seen.insert (.text x)).items = (ts ++ [x]).map .text := by
        rw [Members.items_insert, if_neg (mt (contains_text hseen x).1 hx), hseen, List.map_append]
        rfl
      obtain ⟨m, us, hm, hitems, hus, hmem⟩ :=
        ih _ _ hmore (hts.append (List.nodup_singleton x) (by simpa using hx))
      refine ⟨m, us, hm, hitems, hus, fun y ↦ ?_⟩
      rw [hmem, List.mem_cons, List.mem_append, List.mem_singleton, or_assoc]

end Value

namespace World

/-- The flags of a record are shown in order, without repetition. -/
theorem sort_toFlags {ss : List String} {m : Members} (h : (texts ss).toFlags = .ok m) :
    Value.sort m.items = .ok ((ss.toFinset.sort (· ≤ ·)).map .text) := by
  have hcollect : Value.collect {} (ss.map .text) = .ok m := by
    cases ss with
    | nil => exact h
    | cons x ss => exact h
  obtain ⟨m', us, hm, hitems, hus, hmem⟩ := Value.exists_collect {} [] rfl List.nodup_nil ss
  obtain rfl := Except.ok.inj (hm.symm.trans hcollect)
  have hsame : ss.toFinset = (us.insertionSort (· ≤ ·)).toFinset := by
    ext x
    simp [hmem]
  have hnodup : (us.insertionSort (· ≤ ·)).Nodup := (List.perm_insertionSort _ us).nodup_iff.2 hus
  rw [hitems, Value.sort_texts hus, hsame,
    (List.toFinset_sort _ hnodup).2 (List.pairwise_insertionSort _ us)]

variable {o : ObjectSpec} {r : Record}

def ObjectSpec.exported (o : ObjectSpec) : Value :=
  .dict [
    (.text "id", .text o.id),
    (.text "parent", optional o.parent),
    (.text "flags", texts o.flags),
    (.text "properties", .dict o.properties),
    (.text "desc", optional o.desc),
    (.text "ldesc", optional o.ldesc),
    (.text "fdesc", optional o.fdesc),
    (.text "synonyms", texts o.synonyms),
    (.text "adjectives", texts o.adjectives),
    (.text "size", o.size),
    (.text "action", optional o.action)]

/-- The record says what the description says, up to the order in which flags came. -/
structure ObjectSpec.Shown (o : ObjectSpec) (r : Record) : Prop where
  id : r.id = .text o.id
  parent : r.parent = optional o.parent
  flags : Value.sort r.flags.items = .ok (o.flags.map .text)
  properties : r.properties = o.properties
  desc : r.desc = optional o.desc
  ldesc : r.ldesc = optional o.ldesc
  fdesc : r.fdesc = optional o.fdesc
  synonyms : r.synonyms = texts o.synonyms
  adjectives : r.adjectives = texts o.adjectives
  size : r.size = o.size
  action : r.action = optional o.action

theorem ObjectSpec.Shown.view (h : o.Shown r) (record : Value.Reference) :
    r.view record = .ok o.exported := by
  have haction : r.actionName record = .ok (optional o.action) := by
    rw [Record.actionName, h.action]
    cases o.action <;> rfl
  rw [Record.view, haction, h.flags, h.synonyms, h.adjectives, h.id, h.parent,
    h.properties, h.desc, h.ldesc, h.fdesc, h.size]
  rfl

theorem ObjectSpec.record_attributes (o : ObjectSpec) {m : Members}
    (hm : (texts o.flags).toFlags = .ok m) (es : List (Value × Value)) (k n : Nat) :
    (o.attributes (.dict es k)).record (.text o.id) n = .ok {
      id := .text o.id
      serial := n
      parent := optional o.parent
      flags := m
      properties := es
      desc := optional o.desc
      ldesc := optional o.ldesc
      fdesc := optional o.fdesc
      synonyms := texts o.synonyms
      adjectives := texts o.adjectives
      size := o.size
      action := optional o.action } := by
  obtain ⟨id, parent, desc, ldesc, fdesc, synonyms, adjectives, flags, size, action, _⟩ := o
  rw [Attributes.record, attributes, hm]
  cases desc <;> cases ldesc <;> cases fdesc <;> cases action <;> rfl

def ObjectSpec.installedAs (o : ObjectSpec) (properties : Table Value) : ObjectSpec :=
  { o with flags := o.flags.toFinset.sort (· ≤ ·), properties }

theorem ObjectSpec.shown_of_record {es : List (Value × Value)} {k n : Nat}
    (hr : (o.attributes (.dict es k)).record (.text o.id) n = .ok r) :
    (o.installedAs es).Shown r := by
  obtain ⟨m, hm⟩ := toFlags_texts o.flags
  obtain rfl := Except.ok.inj (hr.symm.trans (o.record_attributes hm es k n))
  exact ⟨rfl, rfl, sort_toFlags hm, rfl, rfl, rfl, rfl, rfl, rfl, rfl, rfl⟩

/-- A description as it comes out of a record: the flags are in order, the size is a number, and
properties are named by texts. -/
structure ObjectSpec.Canonical (o : ObjectSpec) : Prop where
  flags : o.flags.Pairwise (· < ·)
  size : ∃ n, o.size = .int n
  properties : o.properties.Named

theorem ObjectSpec.canonical_installedAs (hsize : ∃ n, o.size = .int n)
    {es : Table Value} (hes : es.Named) :
    (o.installedAs es).Canonical where
  flags := (Finset.sortedLT_sort o.flags.toFinset).pairwise
  size := hsize
  properties := hes

theorem ObjectSpec.Canonical.installedAs_eq (h : o.Canonical) (es : Table Value) :
    o.installedAs es = { o with properties := es } := by
  have hnodup : o.flags.Nodup := h.flags.imp ne_of_lt
  rw [installedAs, (List.toFinset_sort _ hnodup).2 (h.flags.imp le_of_lt)]

@[simp] theorem Checked.apply_ok {α β : Type} (f : α → β) (a : α) :
    Checked.apply (.ok f) (.ok a) = .ok (f a) :=
  rfl

theorem checkOptional_optional (path : List Step) (p : Option String) :
    checkOptional path (optional p) = .ok p := by
  cases p <;> rfl

theorem Checked.all_ok {α : Type} (xs : List α) : Checked.all (xs.map .ok) = .ok xs := by
  induction xs with
  | nil => rfl
  | cons x xs ih =>
    rw [List.map_cons, all, List.foldr_cons, ← all, ih]
    rfl

theorem checkList_map {α : Type} (form : Form) {check : Check α} {f : α → Value} {xs : List α}
    (h : ∀ x ∈ xs, ∀ path, check path (f x) = .ok x) (path : List Step) (k : Nat) :
    checkList form check path (.list (xs.map f) k) = .ok xs := by
  have hcheck : ((xs.map f).mapIdx fun i x ↦ check (path ++ [.index i]) x) = xs.map .ok := by
    refine List.ext_getElem (by simp) fun i _ _ ↦ ?_
    simp [h]
  rw [checkList, hcheck, Checked.all_ok]

theorem checkList_texts (form : Form) (path : List Step) (ss : List String) :
    checkList form checkText path (texts ss) = .ok ss := by
  refine checkList_map form (f := .text) (fun _ _ _ ↦ ?_) path 0
  rfl

theorem checkTable_eq_ok {α : Type} (form : Form) (check : Check α) (f : Value → α)
    {es : List (Value × Value)} (hkeys : ∀ e ∈ es, ∃ x, e.1 = .text x)
    (h : ∀ e ∈ es, ∀ path, check path e.2 = .ok (f e.2)) (path : List Step) (k : Nat) :
    checkTable form check path (.dict es k) =
      .ok (Table.ofEntries (es.map fun e ↦ (e.1, f e.2))) := by
  have hentries : (es.map fun e ↦ Checked.both Prod.mk (checkKey (path ++ [keyStep e.1]) e.1)
      (check (path ++ [keyStep e.1]) e.2)) = (es.map fun e ↦ (e.1, f e.2)).map .ok := by
    rw [List.map_map]
    refine List.map_congr_left fun e he ↦ ?_
    obtain ⟨k, v⟩ := e
    obtain ⟨x, rfl⟩ := hkeys _ he
    rw [h _ he]
    rfl
  show (Checked.all (es.map _)).map Table.ofEntries = _
  rw [hentries, Checked.all_ok]
  rfl

theorem checkTable_of_named {t : Table Value} (h : t.Named) (path : List Step) (k : Nat) :
    checkTable .value (anything .value) path (.dict t k) = .ok t := by
  rw [checkTable_eq_ok .value (anything .value) id (fun e he ↦ h.exists_text he) fun _ _ _ ↦ rfl]
  simp [h.ofEntries_eq]

theorem checkObject_exported (h : o.Canonical) (path : List Step) :
    checkObject .value path o.exported = .ok o := by
  obtain ⟨n, hn⟩ := h.size
  have hsize (path : List Step) : checkWhole path o.size = .ok o.size := by rw [hn]; rfl
  simp [checkObject, checkDefinition, ObjectSpec.exported, fieldRequired,
    fieldOr, given?, Table.find?, checkOptional_optional, checkList_texts,
    checkTable_of_named h.properties, hsize, checkText, text?]
  rfl

def exportedWorld (os : List ObjectSpec) : Value :=
  .dict [(.text "objects", .list (os.map ObjectSpec.exported))]

/-- What is shown of objects defines those objects, and nothing else. -/
theorem ofValue_exportedWorld {os : List ObjectSpec} (h : ∀ o ∈ os, o.Canonical) (stamp : Nat) :
    Spec.ofValue stamp (exportedWorld os) =
      .ok { title := "Untitled", start := none, globals := [], verbs := [], objects := os } := by
  have hobjects := checkList_map .value (fun o ho path ↦ checkObject_exported (h o ho) path)
  have hcheck : checkWorld .value [] (exportedWorld os) =
      .ok { title := "Untitled", start := none, globals := [], verbs := [], objects := os } := by
    simp [checkWorld, checkDefinition, exportedWorld, fieldOr, given?, Table.find?, hobjects]
    rfl
  show (checkWorld .value [] (exportedWorld os)).mapError Problem.invalid = _
  rw [hcheck]
  rfl

namespace Checked

variable {α β γ : Type}

theorem both_eq_ok {f : α → β → γ} {a : Checked α} {b : Checked β} {c : γ}
    (h : both f a b = .ok c) :
    ∃ x y, a = .ok x ∧ b = .ok y ∧ f x y = c := by
  cases a <;> cases b <;> simp only [both, Except.ok.injEq, reduceCtorEq] at h
  exact ⟨_, _, rfl, rfl, h⟩

theorem apply_eq_ok {f : Checked (α → β)} {a : Checked α} {b : β} (h : f.apply a = .ok b) :
    ∃ g x, f = .ok g ∧ a = .ok x ∧ g x = b :=
  both_eq_ok h

theorem mem_of_all {cs : List (Checked α)} {xs : List α}
    (h : all cs = .ok xs) {x : α} (hx : x ∈ xs) :
    .ok x ∈ cs := by
  induction cs generalizing xs with
  | nil =>
    cases h
    cases hx
  | cons c cs ih =>
    obtain ⟨y, ys, rfl, hys, rfl⟩ := both_eq_ok (h : both List.cons c (all cs) = .ok xs)
    rcases List.mem_cons.1 hx with rfl | hx
    · exact List.mem_cons_self
    · exact List.mem_cons_of_mem _ (ih hys hx)

theorem exists_of_all {cs : List (Checked α)} {xs : List α} (h : all cs = .ok xs)
    {c : Checked α} (hc : c ∈ cs) :
    ∃ x, c = .ok x := by
  induction cs generalizing xs with
  | nil => cases hc
  | cons d cs ih =>
    obtain ⟨y, ys, rfl, hys, -⟩ := both_eq_ok (h : both List.cons d (all cs) = .ok xs)
    rcases List.mem_cons.1 hc with rfl | hc
    · exact ⟨y, rfl⟩
    · exact ih hys hc

end Checked

theorem named_of_checkTable {α : Type} {form : Form} {check : Check α}
    {path : List Step} {v : Value} {t : Table α} (h : checkTable form check path v = .ok t) :
    t.Named := by
  cases v with
  | dict es k =>
    obtain ⟨fs, hfs, rfl⟩ := exists_of_map_ok h
    refine Table.named_ofEntries fun f hf ↦ ?_
    obtain ⟨e, -, he⟩ := List.mem_map.1 (Checked.mem_of_all hfs hf)
    obtain ⟨key, w, hkey, -, rfl⟩ := Checked.both_eq_ok he
    rw [checkKey] at hkey
    split at hkey
    · next x _ => exact ⟨x, (Except.ok.inj hkey).symm⟩
    · cases hkey
  | _ => cases h

theorem exists_of_checkObject {form : Form} {path : List Step} {v : Value}
    (h : checkObject form path v = .ok o) :
    ∃ es k, v = .dict es k ∧ fieldOr checkWhole (.int 0) path es "size" = .ok o.size ∧
      fieldOr (checkTable form (anything form)) [] path es "properties" = .ok o.properties := by
  cases v with
  | dict es k =>
    obtain ⟨f₁, properties, h₁, hproperties, rfl⟩ := Checked.apply_eq_ok h
    obtain ⟨f₂, action, h₂, -, rfl⟩ := Checked.apply_eq_ok h₁
    obtain ⟨f₃, size, h₃, hsize, rfl⟩ := Checked.apply_eq_ok h₂
    obtain ⟨f₄, flags, h₄, -, rfl⟩ := Checked.apply_eq_ok h₃
    obtain ⟨f₅, adjectives, h₅, -, rfl⟩ := Checked.apply_eq_ok h₄
    obtain ⟨f₆, synonyms, h₆, -, rfl⟩ := Checked.apply_eq_ok h₅
    obtain ⟨f₇, fdesc, h₇, -, rfl⟩ := Checked.apply_eq_ok h₆
    obtain ⟨f₈, ldesc, h₈, -, rfl⟩ := Checked.apply_eq_ok h₇
    obtain ⟨f₉, desc, h₉, -, rfl⟩ := Checked.apply_eq_ok h₈
    obtain ⟨f₁₀, parent, h₁₀, -, rfl⟩ := Checked.apply_eq_ok h₉
    obtain ⟨id, -, rfl⟩ := exists_of_map_ok h₁₀
    exact ⟨es, k, rfl, hsize, hproperties⟩
  | _ => cases h

theorem exists_of_checkWorld {form : Form} {v : Value} {w : Spec}
    (h : checkWorld form [] v = .ok w) :
    ∃ es k, v = .dict es k ∧ fieldOr (checkTable form (anything form)) []
      [] es "globals" = .ok w.globals ∧
      fieldOr (checkList form (checkObject form)) [] [] es "objects" = .ok w.objects := by
  cases v with
  | dict es k =>
    obtain ⟨f₁, objects, h₁, hobjects, rfl⟩ := Checked.apply_eq_ok h
    obtain ⟨f₂, verbs, h₂, -, rfl⟩ := Checked.apply_eq_ok h₁
    obtain ⟨f₃, globals, h₃, hglobals, rfl⟩ := Checked.apply_eq_ok h₂
    obtain ⟨f₄, start, h₄, -, rfl⟩ := Checked.apply_eq_ok h₃
    obtain ⟨title, -, rfl⟩ := exists_of_map_ok h₄
    exact ⟨es, k, rfl, hglobals, hobjects⟩
  | _ => cases h

theorem of_mem_checkList {α : Type} {form : Form} {check : Check α} {path : List Step}
    {v : Value} {xs : List α} (h : checkList form check path v = .ok xs) {x : α} (hx : x ∈ xs) :
    ∃ ys, ((∃ k, v = .list ys k) ∨ v = .set ys) ∧ ∃ path', ∃ y ∈ ys, check path' y = .ok x := by
  have hitem (ys : List Value)
      (h : Checked.all (ys.mapIdx fun i y ↦ check (path ++ [.index i]) y) = .ok xs) :
      ∃ path', ∃ y ∈ ys, check path' y = .ok x := by
    obtain ⟨i, hi, hcheck⟩ := List.mem_mapIdx.1 (Checked.mem_of_all h hx)
    exact ⟨_, _, List.getElem_mem hi, hcheck⟩
  cases v with
  | list ys k => exact ⟨ys, .inl ⟨k, rfl⟩, hitem ys h⟩
  | set ys => exact ⟨ys, .inr rfl, hitem ys h⟩
  | _ => cases h

theorem exists_mem_of_given? {es : List (Value × Value)} {name : String} {v : Value}
    (h : given? es name = some v) : ∃ e ∈ es, e.2 = v := by
  obtain ⟨e, he, rfl⟩ := Option.map_eq_some_iff.1 h
  exact ⟨e, List.mem_reverse.1 (List.mem_of_find?_eq_some he), rfl⟩

/-- Every object of a world comes of a dictionary among the items in one of its fields. -/
theorem exists_definition {form : Form} {v : Value} {w : Spec}
    (h : check form v = .ok w) (ho : o ∈ w.objects) :
    ∃ es k, v = .dict es k ∧ ∃ e ∈ es, ∃ ys, ((∃ l, e.2 = .list ys l) ∨ e.2 = .set ys) ∧
      ∃ fs l, .dict fs l ∈ ys ∧ ∃ path, fieldOr checkWhole (.int 0) path fs "size" = .ok o.size ∧
        fieldOr (checkTable form (anything form)) [] path fs "properties" = .ok o.properties := by
  obtain ⟨es, k, rfl, -, hobjects⟩ := exists_of_checkWorld (of_mapError_ok h)
  rw [fieldOr] at hobjects
  split at hobjects
  · next x hx =>
    obtain ⟨e, he, rfl⟩ := exists_mem_of_given? hx
    obtain ⟨ys, hys, path, y, hy, hcheck⟩ := of_mem_checkList hobjects ho
    obtain ⟨fs, l, rfl, hsize, hproperties⟩ := exists_of_checkObject hcheck
    exact ⟨es, k, rfl, e, he, ys, hys, fs, l, hy, path, hsize, hproperties⟩
  · rw [← Except.ok.inj hobjects] at ho
    cases ho

/-- Properties are named by texts, whatever defines the world. -/
theorem named_of_check {form : Form} {v : Value} {w : Spec}
    (h : check form v = .ok w) (ho : o ∈ w.objects) :
    o.properties.Named := by
  obtain ⟨-, -, -, -, -, -, -, fs, -, -, path, -, hproperties⟩ := exists_definition h ho
  rw [fieldOr] at hproperties
  split at hproperties
  · exact named_of_checkTable hproperties
  · rw [← Except.ok.inj hproperties]
    exact Table.named_nil

end World

end Fable
