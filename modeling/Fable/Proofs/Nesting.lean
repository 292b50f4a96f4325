import Fable.Proofs.Quotations

namespace Fable

namespace Json

open Text

variable {stamp : Nat} {cs : List Char} {o o' : Origin}

def enter (close : Char) (v : Value) (next : List Char → Read Value) (cs : List Char) :
    Read Value :=
  match skip cs with
  | [] => next []
  | c :: rest => if c = close then .ok (v, rest) else next (c :: rest)

def goOn (close : Char) (v : Value) (next : List Char → Read Value) (cs : List Char) :
    Read Value :=
  match skip cs with
  | [] => trouble .comma []
  | c :: rest =>
    if c = close then .ok (v, rest) else if c = ',' then next (skip rest)
    else trouble .comma (c :: rest)

theorem value_brace (n : Nat) (cs : List Char) :
    value o stamp (n + 1) ('\x7b' :: cs) = enter '\x7d' (.dict []) (members o stamp n []) cs := by
  rw [value, enter]
  rcases skip cs with _ | ⟨c, rest⟩
  · rfl
  · by_cases hc : c = '\x7d'
    · subst hc
      rfl
    · simp [hc]

theorem value_bracket (n : Nat) (cs : List Char) :
    value o stamp (n + 1) ('[' :: cs) = enter ']' (.list []) (items o stamp n []) cs := by
  rw [value, enter]
  rcases skip cs with _ | ⟨c, rest⟩
  · rfl
  · by_cases hc : c = ']'
    · subst hc
      rfl
    · simp [hc]

theorem items_succ (n : Nat) (done : List Value) (cs : List Char) :
    items o stamp (n + 1) done cs = (value o stamp n cs).bind fun p ↦
      goOn ']' (.list (p.1 :: done).reverse) (items o stamp n (p.1 :: done)) p.2 := by
  rw [items]
  refine congrArg (Except.bind (value o stamp n cs)) (funext fun p ↦ ?_)
  dsimp only [goOn]
  rcases skip p.2 with _ | ⟨c, rest⟩
  · rfl
  · by_cases hc : c = ']'
    · subst hc
      rfl
    by_cases hcomma : c = ','
    · subst hcomma
      rfl
    · simp [hc, hcomma]

theorem members_quote (n : Nat) (done : List (Value × Value)) (cs : List Char) :
    members o stamp (n + 1) done ('"' :: cs) = (string o ('"' :: cs) cs).bind fun p ↦
      match skip p.2 with
      | [] => trouble .colon []
      | c :: rest => if c = ':' then (value o stamp n (skip rest)).bind fun q ↦
          goOn '\x7d' (.dict ((.text p.1, q.1) :: done).reverse)
            (members o stamp n ((.text p.1, q.1) :: done)) q.2
        else trouble .colon (c :: rest) := by
  rw [members]
  refine congrArg (Except.bind (string o ('"' :: cs) cs)) (funext fun p ↦ ?_)
  dsimp only
  rcases skip p.2 with _ | ⟨c, rest⟩
  · rfl
  by_cases hc : c = ':'
  · subst hc
    refine congrArg (Except.bind (value o stamp n (skip rest))) (funext fun q ↦ ?_)
    dsimp only [goOn]
    rcases skip q.2 with _ | ⟨c, rest⟩
    · rfl
    by_cases hc : c = '\x7d'
    · subst hc
      rfl
    by_cases hcomma : c = ','
    · subst hcomma
      rfl
    · simp [hc, hcomma]
  · simp [hc]

theorem members_of_ne {c : Char} (hc : c ≠ '"') (n : Nat)
    (done : List (Value × Value)) (cs : List Char) :
    members o stamp (n + 1) done (c :: cs) = trouble .propertyName (c :: cs) := by
  rw [members]
  simp [hc]

structure KeepsStep (o o' : Origin) (stamp n : Nat) : Prop where
  value : ∀ {m} (cs), 2 * cs.length + 1 ≤ n → 2 * (unifyEnds cs).length + 1 ≤ m →
    Follows o o' merged cs (value o stamp n cs) (value o' 0 m (unifyEnds cs))
  members : ∀ {m} (cs) (done : List (Value × Value)), 2 * cs.length + 2 ≤ n →
    2 * (unifyEnds cs).length + 2 ≤ m →
    Follows o o' merged cs (members o stamp n done cs)
      (members o' 0 m (done.map fun e ↦ (e.1, merged e.2)) (unifyEnds cs))
  items : ∀ {m} (cs) (done : List Value), 2 * cs.length + 2 ≤ n →
    2 * (unifyEnds cs).length + 2 ≤ m →
    Follows o o' merged cs (items o stamp n done cs) (items o' 0 m (done.map merged) (unifyEnds cs))

section
variable {next next' : List Char → Read Value} {close : Char} {v v' : Value}

theorem enter_follows (hv : merged v = v')
    (hnext : Follows o o' merged cs (next (skip cs)) (next' (unifyEnds (skip cs)))) :
    Follows o o' merged cs (enter close v next cs) (enter close v' next' (unifyEnds cs)) := by
  subst hv
  rw [enter, enter, skip_unifyEnds]
  rcases skip_cases cs with hskip | ⟨c, s, hskip, hc, hs⟩
  · rw [hskip] at hnext ⊢
    exact hnext
  · rw [hskip, unifyEnds_cons hc] at hnext ⊢
    dsimp only
    split
    · exact .read hs.suffix
    · exact hnext

theorem goOn_follows {rest : List Char} (hrest : rest <:+ cs) (hv : merged v = v')
    (hnext : ∀ s, Later 1 s cs → Follows o o' merged s (next s) (next' (unifyEnds s))) :
    Follows o o' merged cs (goOn close v next rest) (goOn close v' next' (unifyEnds rest)) := by
  subst hv
  rw [goOn, goOn, skip_unifyEnds]
  rcases skip_cases rest with hskip | ⟨c, s, hskip, hc, hs⟩
  · rw [hskip]
    exact follows_trouble ..
  have hlater := hs.trans (.of_suffix hrest)
  rw [hskip, unifyEnds_cons hc]
  dsimp only
  split
  · exact .read hlater.suffix
  split
  · have hskipped := (later_skip s).trans hlater
    rw [skip_unifyEnds]
    exact (hnext (skip s) hskipped).mono hskipped.suffix
  · exact follows_trouble ..

end

section
variable {n m : Nat} (hn : KeepsStep o o' stamp n)

include hn

theorem KeepsStep.items_succ (done : List Value) (hcs : 2 * cs.length + 2 ≤ n + 1)
    (hm : 2 * (unifyEnds cs).length + 2 ≤ m) :
    Follows o o' merged cs (Json.items o stamp (n + 1) done cs)
      (Json.items o' 0 m (done.map merged) (unifyEnds cs)) := by
  obtain ⟨m, rfl⟩ : ∃ k, m = k + 1 := ⟨m - 1, by omega⟩
  rw [Json.items_succ, Json.items_succ]
  refine (hn.value cs (by omega) (by omega)).bind fun v rest hrest ↦ ?_
  refine goOn_follows hrest (by rw [merged_list, List.map_reverse, List.map_cons]) fun s hs ↦ ?_
  have hlength := hs.length
  have hunified := hs.unified
  exact hn.items s (v :: done) (by omega) (by omega)

variable (ho : o' = .given → o = .given)

include ho

theorem KeepsStep.value_succ (hcs : 2 * cs.length + 1 ≤ n + 1)
    (hm : 2 * (unifyEnds cs).length + 1 ≤ m) :
    Follows o o' merged cs (Json.value o stamp (n + 1) cs) (Json.value o' 0 m (unifyEnds cs)) := by
  obtain ⟨m, rfl⟩ : ∃ k, m = k + 1 := ⟨m - 1, by omega⟩
  cases cs using lineEnd_cases with
  | nil => exact follows_trouble ..
  | lineEnd cs ds hds =>
    have h := scalar_follows ho stamp ('\r' :: cs)
    rw [hds] at h ⊢
    rwa [value_of_scalar (by decide), value_of_scalar (by decide)]
  | char c cs _ hunify =>
    obtain ⟨-, hlength, hunified⟩ := later_skip cs
    have hsuffix : cs <:+ c :: cs := List.suffix_cons c cs
    rw [hunify] at hm ⊢
    rw [List.length_cons] at hcs hm
    by_cases hquote : c = '"'
    · subst hquote
      exact ((string_follows ho _ _ cs).map (k := Value.text) fun _ ↦ rfl).mono hsuffix
    by_cases hbrace : c = '\x7b'
    · subst hbrace
      rw [value_brace, value_brace]
      have h := hn.members (m := m) (skip cs) [] (by omega) (by omega)
      exact (enter_follows rfl (h.mono (later_skip cs).suffix)).mono hsuffix
    by_cases hbracket : c = '['
    · subst hbracket
      rw [value_bracket, value_bracket]
      have h := hn.items (m := m) (skip cs) [] (by omega) (by omega)
      exact (enter_follows rfl (h.mono (later_skip cs).suffix)).mono hsuffix
    · have h := scalar_follows ho stamp (c :: cs)
      rw [hunify] at h
      rwa [value_of_scalar ⟨hquote, hbrace, hbracket⟩, value_of_scalar ⟨hquote, hbrace, hbracket⟩]

theorem KeepsStep.members_succ (done : List (Value × Value)) (hcs : 2 * cs.length + 2 ≤ n + 1)
    (hm : 2 * (unifyEnds cs).length + 2 ≤ m) :
    Follows o o' merged cs (Json.members o stamp (n + 1) done cs)
      (Json.members o' 0 m (done.map fun e ↦ (e.1, merged e.2)) (unifyEnds cs)) := by
  obtain ⟨m, rfl⟩ : ∃ k, m = k + 1 := ⟨m - 1, by omega⟩
  cases cs using lineEnd_cases with
  | nil => exact follows_trouble ..
  | lineEnd cs ds hds =>
    rw [hds, members_of_ne (by decide), members_of_ne (by decide)]
    exact follows_trouble ..
  | char c cs _ hunify =>
    rw [hunify] at hm ⊢
    by_cases hquote : c = '"'
    · subst hquote
      rw [List.length_cons] at hcs hm
      rw [members_quote, members_quote]
      refine Follows.mono ?_ (List.suffix_cons '"' cs)
      refine (string_follows ho _ _ cs).bind fun name rest hrest ↦ ?_
      dsimp only [id]
      rw [skip_unifyEnds]
      rcases skip_cases rest with hskip | ⟨c, s, hskip, hc, hs⟩
      · rw [hskip]
        exact follows_trouble ..
      obtain ⟨hsuffix, hlength, hunified⟩ := (later_skip s).trans (hs.trans (.of_suffix hrest))
      rw [hskip, unifyEnds_cons hc]
      dsimp only
      split
      · rw [skip_unifyEnds]
        refine ((hn.value (m := m) (skip s) (by omega) (by omega)).mono hsuffix).bind
          fun v rest' hrest' ↦ ?_
        refine goOn_follows hrest' (by rw [merged_dict, List.map_reverse, List.map_cons])
          fun s hs ↦ ?_
        have hlength' := hs.length
        have hunified' := hs.unified
        exact hn.members s ((.text name, v) :: done) (by omega) (by omega)
      · exact follows_trouble ..
    · rw [members_of_ne hquote, members_of_ne hquote]
      exact follows_trouble ..

omit ho hn

theorem keepsStep (ho : o' = .given → o = .given) (stamp n : Nat) : KeepsStep o o' stamp n := by
  induction n with
  | zero => exact ⟨by omega, by omega, by omega⟩
  | succ n ih => exact ⟨fun _ ↦ ih.value_succ ho, fun _ ↦ ih.members_succ ho, fun _ ↦ ih.items_succ⟩

end

end Json

end Fable
