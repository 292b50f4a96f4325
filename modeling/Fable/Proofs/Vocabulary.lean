import Fable.Proofs.Grammar
import Fable.Proofs.Offers

namespace Fable

theorem Table.contains_eq_isSome {α : Type} (t : Table α) (key : Value) :
    t.contains key = (t.find? key).isSome := by
  rw [contains, find?, Option.isSome_map, List.isSome_find?]

theorem Game.verbTag_of_find? {g : Game} {v : String} {tag : Value}
    (hv : g.verbs.find? (.text v) = some tag) :
    g.verbTag (.text v) = tag := by
  rw [verbTag, hv]
  rfl

namespace Play

/-- What a verb is registered with is found under it: the tag, or the verb itself if there is
none. -/
theorem exists_registerVerb (verb : String) (tag : Value) (g : Game) :
    ∃ h, registerVerb (.text verb) tag g = .ok (if tag.truthy then tag else .text verb) h ∧
      h.verbs.find? (.text verb) = some (if tag.truthy then tag else .text verb) := by
  have hkey : (Value.text verb).isText := rfl
  refine ⟨_, rfl, ?_⟩
  rw [Table.find?_insert g.verbs hkey, if_pos rfl]

def respond (exec : Exec) (tag direct indirect : Value) : Play Bool := do
  let handled ← offer exec tag direct indirect
  discard <| applyAction exec ((← get).global "HERE") (.message .after)
  pure handled.truthy

theorem perform_eq_respond (exec : Exec) {verb : Value} (hv : verb.hashable)
    (direct indirect : Value) (g : Game) :
    perform exec verb direct indirect g =
      respond exec (g.verbTag verb) direct indirect (g.asked (g.verbTag verb) direct indirect) := by
  rw [perform, Runs.bind_of_ok (verbTag_of_hashable hv g)]
  rfl

end Play

namespace Resolver

variable {g : Game} {walkVerb tag : Value} {line v w d : String}

theorem resolve_of_word (hline : significant line = [w]) (hw : direction? w = none) :
    resolve g walkVerb line = .ok (if g.verbs.contains (.text (Text.upper w)) then
      some { verb := .text (Text.upper w) } else none) := by
  have hword : onlyDirection? [w] = none := hw
  rw [resolve, hline]
  simp only [hword]
  rw [resolveVerb]
  cases g.verbs.contains (.text (Text.upper w)) with
  | false => rfl
  | true =>
    have hnone : onlyDirection? [] = none := rfl
    rw [hnone, ite_self]
    rfl

theorem significant_of_isWord (hv : Text.IsWord v) (harticle : Text.lower v ∉ articles) :
    significant v = [Text.lower v] := by
  rw [significant, Text.words_lower hv]
  simpa using harticle

/-- A verb that is typed alone means the one in the capital letters of its small ones, if that is
registered. So it means itself, and performing it sets the action to its tag before anything
answers, exactly if it is in those letters. -/
theorem typed_verb_iff (walkVerb : Value) (hv : g.verbs.find? (.text v) = some tag)
    (hword : Text.IsWord v) (harticle : Text.lower v ∉ articles)
    (hdirection : direction? (Text.lower v) = none) :
    resolve g walkVerb v = .ok (if g.verbs.contains (.text (Text.upper (Text.lower v))) then
      some { verb := .text (Text.upper (Text.lower v)) } else none) ∧
    ((resolve g walkVerb v = .ok (some { verb := .text v }) ∧
      (g.asked tag .none .none).global "PRSA" = tag ∧
      ∀ exec, Play.perform exec (.text v) .none .none g =
        Play.respond exec tag .none .none (g.asked tag .none .none)) ↔
          Text.upper (Text.lower v) = v) := by
  have hresolve : resolve g walkVerb v = _ :=
    resolve_of_word (significant_of_isWord hword harticle) hdirection
  refine ⟨hresolve, ?_⟩
  rw [hresolve]
  constructor
  · intro h
    have hcommand := Except.ok.inj h.1
    split at hcommand
    · have hverb := congrArg Command.verb (Option.some.inj hcommand)
      exact Value.text.inj hverb
    · cases hcommand
  · intro hspelling
    have hknown : g.verbs.contains (.text v) := by
      rw [Table.contains_eq_isSome, hv]
      rfl
    rw [hspelling, if_pos hknown]
    refine ⟨rfl, by simp [Game.asked, Game.global_assign], fun exec ↦ ?_⟩
    rw [Play.perform_eq_respond exec rfl, Game.verbTag_of_find? hv]

theorem typed_deja_resolved :
    ∃ g, Play.registerVerb (.text "DÉJÀ") (.text "AGAIN") {} = .ok (.text "AGAIN") g ∧
      resolve g (.text "WALK") "DÉJÀ" = .ok (some { verb := .text "DÉJÀ" }) ∧
      (g.asked (.text "AGAIN") .none .none).global "PRSA" = .text "AGAIN" := by
  obtain ⟨g, hg, hv⟩ := Play.exists_registerVerb "DÉJÀ" (.text "AGAIN") {}
  have hspelling : Text.upper (Text.lower "DÉJÀ") = "DÉJÀ" := by decide +kernel
  have h :=
    (typed_verb_iff (.text "WALK") hv (by decide +kernel) (by decide +kernel)
      (by decide +kernel)).2.2 hspelling
  exact ⟨g, hg, h.1, h.2.1⟩

/-- A verb in small letters is not found, although it is registered. -/
theorem registered_dance_unknown :
    ∃ g, Play.registerVerb (.text "dance") .none {} = .ok (.text "dance") g ∧
      Text.IsWord "dance" ∧ Text.lower "dance" ∉ articles ∧ direction? (Text.lower "dance") = none ∧
      resolve g (.text "WALK") "dance" = .ok none := by
  have hword : Text.IsWord "dance" := by decide +kernel
  have harticle : Text.lower "dance" ∉ articles := by decide +kernel
  have hdirection : direction? (Text.lower "dance") = none := by decide +kernel
  refine ⟨_, rfl, hword, harticle, hdirection, ?_⟩
  rw [resolve_of_word (significant_of_isWord hword harticle) hdirection, if_neg (by decide +kernel)]

/-- The line means an action of this tag in the direction, without another object. -/
def Heads (g : Game) (walkVerb : Value) (line : String) (tag : Value) (direction : String) : Prop :=
  ∃ c, resolve g walkVerb line = .ok (some c) ∧ g.verbTag c.verb = tag ∧
    c.direct = .text direction ∧
    c.indirect = .none

theorem mem_directions {direction : String} (hd : direction? d = some direction) :
    (d, direction) ∈ directions := by
  obtain ⟨before, after, hlist, -⟩ := List.lookup_eq_some_iff.1 hd
  simp [hlist]

theorem direction_spelling {direction : String} (hd : direction? d = some direction) :
    Text.IsWord d ∧ Text.IsAscii d ∧ Text.lower d = d ∧ d ∉ articles ∧ d ∉ prepositions := by
  have hall : ∀ e ∈ directions, Text.IsWord e.1 ∧ Text.IsAscii e.1 ∧
      Text.lower e.1 = e.1 ∧ e.1 ∉ articles ∧
      e.1 ∉ prepositions := by
    decide +kernel
  exact hall _ (mem_directions hd)

theorem significant_of_direction {direction : String} (hd : direction? d = some direction) :
    significant d = [d] := by
  obtain ⟨hword, -, hlower, harticle, -⟩ := direction_spelling hd
  rw [← hlower] at harticle
  have h := significant_of_isWord hword harticle
  rw [hlower] at h
  exact h

theorem resolve_of_direction {direction : String} (hline : significant line = [d])
    (hd : direction? d = some direction) :
    resolve g walkVerb line = .ok (some { verb := walkVerb, direct := .text direction }) := by
  have hword : onlyDirection? [d] = some direction := hd
  rw [resolve, hline]
  simp only [hword]

theorem significant_pair {direction : String} (hv : Text.IsWord v) (hascii : Text.IsAscii v)
    (hd : direction? d = some direction) :
    significant (v ++ " " ++ d) = if Text.lower v ∈ articles then [d] else [Text.lower v, d] := by
  obtain ⟨hword, hdascii, hlower, harticle, -⟩ := direction_spelling hd
  have hall : ∀ w ∈ [v, d], Text.IsAscii w := by
    intro w hw
    rcases List.mem_cons.1 hw with rfl | hw
    · exact hascii
    · rwa [List.mem_singleton.1 hw]
  rw [significant_of_spaced (Text.spaced_pair hv hword) hall]
  simp only [List.map_cons, List.map_nil, hlower]
  split
  · next h => simp [h, harticle]
  · next h => simp [h, harticle]

theorem fill_direct_iff {verb : String} {phrase : List String}
    (hphrase : phrase ≠ []) {c : Command} :
    fill g verb phrase [] = .ok (some c) ↔
      ∃ x, match? g phrase = .ok (some x) ∧ c = { verb := .text verb, direct := x } := by
  have hmatch : matchPhrase g phrase = match? g phrase := by
    rw [matchPhrase, if_neg (by simpa using hphrase)]
  have hsecond : matchPhrase g [] = .ok none := rfl
  rw [fill, hmatch, hsecond]
  cases match? g phrase with
  | error f => simp [bind, Except.bind]
  | ok found =>
    have hempty : phrase.isEmpty = false := by simpa using hphrase
    cases found with
    | none => simp [bind, Except.bind, hempty, pure, Except.pure]
    | some x => simp [bind, Except.bind, hempty, pure, Except.pure, eq_comm]

theorem resolve_of_pair {direction : String} (hline : significant line = [w, d])
    (hd : direction? d = some direction) (hw : g.verbs.find? (.text (Text.upper w)) = some tag) :
    resolve g walkVerb line = if g.store.equal tag walkVerb then
      .ok (some { verb := .text (Text.upper w), direct := .text direction })
        else fill g (Text.upper w) [d] [] := by
  have hknown : g.verbs.contains (.text (Text.upper w)) = true := by
    rw [Table.contains_eq_isSome, hw]
    rfl
  have htwo : onlyDirection? [w, d] = none := rfl
  have hone : onlyDirection? [d] = some direction := hd
  have hphrases : phrases [d] = ([d], []) := by
    simp [phrases, (direction_spelling hd).2.2.2.2]
  rw [resolve, hline]
  simp only [htwo]
  rw [resolveVerb, hknown, Game.verbTag_of_find? hw, hone, hphrases]
  cases g.store.equal tag walkVerb <;> rfl

/-- A direction alone is a walk. With a verb of the same tag in front it means the same exactly if
the verb for walking is that tag, or the verb is passed over as an article, or an object that is
called like the direction has the name of it. -/
theorem spelled_direction_iff {g : Game} {v walk d direction : String} {tag : Value}
    (hwalk : g.verbs.find? (.text walk) = some tag) (hv : g.verbs.find? (.text v) = some tag)
    (hword : Text.IsWord v) (hascii : Text.IsAscii v) (hupper : Text.upper v = v)
    (hd : direction? d = some direction) :
    Heads g (.text walk) d tag direction ∧
      (Heads g (.text walk) (v ++ " " ++ d) tag direction ↔ g.store.equal tag (.text walk) ∨
        Text.lower v ∈ articles ∨ match? g [d] = .ok (some (.text direction))) := by
  have halone {line : String} (hline : significant line = [d]) :
      Heads g (.text walk) line tag direction :=
    ⟨_, resolve_of_direction hline hd, Game.verbTag_of_find? hwalk, rfl, rfl⟩
  refine ⟨halone (significant_of_direction hd), ?_⟩
  have hpair := significant_pair hword hascii hd
  split at hpair
  · next harticle => exact iff_of_true (halone hpair) (.inr (.inl harticle))
  · next harticle =>
    have hspelling : Text.upper (Text.lower v) = v := by rw [hascii.upper_lower, hupper]
    have hverb : g.verbs.find? (.text (Text.upper (Text.lower v))) = some tag := by
      rw [hspelling, hv]
    have hresolve : resolve g (.text walk) (v ++ " " ++ d) = _ := resolve_of_pair hpair hd hverb
    rw [Heads, hresolve, hspelling, or_iff_right harticle]
    by_cases hwalks : g.store.equal tag (.text walk)
    · rw [if_pos hwalks]
      exact iff_of_true ⟨_, rfl, Game.verbTag_of_find? hv, rfl, rfl⟩ (.inl hwalks)
    · rw [if_neg hwalks, or_iff_right hwalks]
      constructor
      · intro h
        obtain ⟨c, hc, -, hdirect, -⟩ := h
        obtain ⟨x, hx, rfl⟩ := (fill_direct_iff (List.cons_ne_nil d [])).1 hc
        obtain rfl : x = .text direction := hdirect
        exact hx
      · intro hx
        exact ⟨_, (fill_direct_iff (List.cons_ne_nil d [])).2 ⟨_, hx, rfl⟩,
          Game.verbTag_of_find? hv, rfl, rfl⟩

def twoWalks : Game where
  verbs := [(.text "WALK", .text "WALK"), (.text "GO", .text "WALK")]

theorem find?_twoWalks :
    ∀ name ∈ ["WALK", "GO"], twoWalks.verbs.find? (.text name) = some (.text "WALK") := by
  simp [twoWalks, Table.find?]

theorem go_north_heads :
    Heads twoWalks (.text "WALK") "n" (.text "WALK") "NORTH" ∧
      Heads twoWalks (.text "WALK") "GO n" (.text "WALK") "NORTH" := by
  have hwalk := find?_twoWalks "WALK" (by simp)
  have hgo := find?_twoWalks "GO" (by simp)
  obtain ⟨hbare, hspelled⟩ :=
    spelled_direction_iff hwalk hgo (by decide +kernel) (by decide +kernel)
    (by decide +kernel) (rfl : direction? "n" = some "NORTH")
  exact ⟨hbare, hspelled.2 (.inl (by decide +kernel))⟩

/-- With the other name as the verb for walking a direction is understood alone, and not behind that
verb. -/
theorem go_north_not_understood :
    twoWalks.verbs.find? (.text "GO") = some (.text "WALK") ∧ Text.upper "GO" = "GO" ∧
      Heads twoWalks (.text "GO") "n" (.text "WALK") "NORTH" ∧
      resolve twoWalks (.text "GO") "GO n" = .ok none ∧
      ¬ Heads twoWalks (.text "GO") "GO n" (.text "WALK") "NORTH" := by
  have hgo := find?_twoWalks "GO" (by simp)
  have hnorth : direction? "n" = some "NORTH" := rfl
  have hline : significant "GO n" = ["go", "n"] := by decide +kernel
  have hspelling : Text.upper "go" = "GO" := by decide +kernel
  have hnone : resolve twoWalks (.text "GO") "GO n" = .ok none := by
    rw [resolve_of_pair hline hnorth (hspelling ▸ hgo), if_neg (by decide +kernel)]
    rfl
  refine ⟨hgo, by decide +kernel, ?_, hnone, ?_⟩
  · exact ⟨_, resolve_of_direction (significant_of_direction hnorth) hnorth,
      Game.verbTag_of_find? hgo, rfl, rfl⟩
  · intro h
    obtain ⟨c, hc, -⟩ := h
    rw [hnone] at hc
    cases hc

end Resolver

end Fable
