import Fable.Proofs.Matching
import Fable.Proofs.Spelling
import Fable.Value.Shared

namespace Fable

theorem Store.isDefined_of_mem {s : Store} {e : Value × Record} (he : e ∈ s.records)
    (hsome : e.1.isNone = false) :
    s.isDefined e.1 := by
  have hself : Value.alike e.1 e.1 := Value.like_self _ e.1
  rw [isDefined, find?, hsome, lookup?, Table.find?]
  simpa using ⟨e.1, ⟨e.2, he⟩, hself⟩

namespace Resolver

variable {g : Game} {walkVerb : Value} {line : String} {c : Command}

theorem isDefined_of_firstNamed {phrase : List String} {t : Table Record}
    (ht : ∀ e ∈ t, e ∈ g.store.records) {x : Value} (h : firstNamed phrase t = .ok (some x)) :
    g.store.isDefined x := by
  induction t with
  | nil => cases h
  | cons e t ih =>
    have hrest := ih fun d hd ↦ ht d (List.mem_cons_of_mem e hd)
    rw [firstNamed] at h
    split at h
    · exact hrest h
    · next hsome =>
      obtain ⟨named, -, h⟩ := exists_of_bind_ok h
      split at h
      · cases h
        exact Store.isDefined_of_mem (ht e List.mem_cons_self) (by simpa using hsome)
      · exact hrest h

theorem isDefined_of_matchPhrase {phrase : List String} {x : Value}
    (h : matchPhrase g phrase = .ok (some x)) :
    g.store.isDefined x := by
  rw [matchPhrase] at h
  split at h
  · cases h
  · obtain ⟨found, hfound, hrest⟩ := exists_of_bind_ok h
    cases found with
    | some y =>
      cases hrest
      exact isDefined_of_firstNamed (fun e he ↦ (List.mem_filter.1 he).1) hfound
    | none => exact isDefined_of_firstNamed (fun e he ↦ he) hrest

/-- A known verb, or the one for walking, with a direction or a defined object, and with another
object. -/
structure Meant (g : Game) (walkVerb : Value) (c : Command) : Prop where
  verb : g.verbs.contains c.verb ∨ c.verb = walkVerb
  direct : c.direct = .none ∨ g.store.isDefined c.direct ∨ ∃ word d,
    direction? word = some d ∧ c.direct = .text d
  indirect : c.indirect = .none ∨ g.store.isDefined c.indirect

theorem matched_or_none {phrase : List String} {x : Option Value}
    (h : matchPhrase g phrase = .ok x) :
    x.getD .none = .none ∨ g.store.isDefined (x.getD .none) := by
  cases x with
  | none => exact .inl rfl
  | some x => exact .inr (isDefined_of_matchPhrase h)

theorem meant_of_fill {verb : String} {direct indirect : List String}
    (hverb : g.verbs.contains (.text verb)) (h : fill g verb direct indirect = .ok (some c)) :
    Meant g walkVerb c := by
  obtain ⟨x, hx, h⟩ := exists_of_bind_ok h
  obtain ⟨y, hy, h⟩ := exists_of_bind_ok h
  split at h
  · cases h
  · cases h
    exact ⟨.inl hverb, (matched_or_none hx).imp_right .inl, matched_or_none hy⟩

theorem exists_direction {ws : List String} {d : String} (h : onlyDirection? ws = some d) :
    ∃ word, direction? word = some d := by
  match ws, h with
  | [word], h => exact ⟨word, h⟩

theorem meant_of_resolveVerb {verb : String} {rest : List String}
    (h : resolveVerb g walkVerb verb rest = .ok (some c)) : Meant g walkVerb c := by
  rw [resolveVerb] at h
  split at h
  · cases h
  · next hverb =>
    have hverb : g.verbs.contains (.text verb) := by simpa using hverb
    split at h
    · next d hd =>
      obtain ⟨word, hword⟩ := exists_direction (Option.ite_none_right_eq_some.1 hd).2
      cases h
      exact ⟨.inl hverb, .inr (.inr ⟨word, d, hword, rfl⟩), .inl rfl⟩
    · exact meant_of_fill hverb h

theorem meant_of_resolve (h : resolve g walkVerb line = .ok (some c)) : Meant g walkVerb c := by
  rw [resolve] at h
  split at h
  · cases h
  · split at h
    · next d hd =>
      obtain ⟨word, hword⟩ := exists_direction hd
      cases h
      exact ⟨.inr rfl, .inr (.inr ⟨word, d, hword, rfl⟩), .inl rfl⟩
    · exact meant_of_resolveVerb h

theorem significant_of_spaced {ws : List String} (hline : Text.Spaced ws line.toList)
    (hws : ∀ w ∈ ws, Text.IsAscii w) :
    significant line = (ws.map Text.lower).filter fun w ↦ !articles.contains w := by
  have hlower : Text.Spaced (ws.map Text.lower) (Text.lower line).toList := by
    rw [Text.lower, String.toList_ofList]
    exact hline.lower hws
  rw [significant, hlower.words_eq]

theorem phrases_append {direct rest : List String} (hdirect : ∀ w ∈ direct, w ∉ prepositions)
    (hrest : ∀ w ∈ rest.head?, w ∈ prepositions) :
    phrases (direct ++ rest) = (direct, rest.tail) := by
  have hstop : rest.takeWhile (fun w ↦ !prepositions.contains w) = [] := by
    cases rest with
    | nil => rfl
    | cons w rest => simp [hrest w rfl]
  have htake : (direct ++ rest).takeWhile (fun w ↦ !prepositions.contains w) = direct := by
    rw [List.takeWhile_append_of_pos fun w hw ↦ by simpa using hdirect w hw, hstop, List.append_nil]
  rw [phrases, htake, List.drop_length_add_append, List.drop_one]

def IsNominal (w : String) : Prop := Text.lower w ∉ prepositions ∧ direction? (Text.lower w) = none

instance (w : String) : Decidable (IsNominal w) := inferInstanceAs (Decidable (_ ∧ _))

structure Sentence where
  verb : String
  /-- The words of an object; there are none if there is no object. -/
  direct : List String := []
  /-- A preposition, and the words of an object behind it. -/
  indirect : Option (String × List String) := none

namespace Sentence

def object (s : Sentence) : List String := s.indirect.elim [] (·.2)

def complements (s : Sentence) : List String := s.direct ++ s.indirect.elim [] fun e ↦ e.1 :: e.2

def words (s : Sentence) : List String := s.verb :: s.complements

structure Proper (s : Sentence) : Prop where
  verb : direction? (Text.lower s.verb) = none
  direct : ∀ w ∈ s.direct, IsNominal w
  preposition : ∀ e ∈ s.indirect, Text.lower e.1 ∈ prepositions
  object : ∀ e ∈ s.indirect, e.2 ≠ [] ∧ ∀ w ∈ e.2, IsNominal w

/-- The line has the words of the sentence, and articles anywhere among them, in ASCII, with blanks
between and around them. -/
def Fills (s : Sentence) (line : String) : Prop :=
  ∃ ws, Text.Spaced ws line.toList ∧ (∀ w ∈ ws, Text.IsAscii w) ∧
    (ws.filter fun w ↦ !articles.contains (Text.lower w)) = s.words

/-- The verb in capital letters with what the objects are matched with; nothing if one that is there
is matched with nothing. -/
def meaning (g : Game) (s : Sentence) : Except Fault (Option Command) := do
  let x ← matchPhrase g (s.direct.map Text.lower)
  let y ← matchPhrase g (s.object.map Text.lower)
  pure <|
    if (s.direct ≠ [] → x.isSome) ∧ (s.object ≠ [] → y.isSome) then
      some { verb := .text (Text.upper s.verb), direct := x.getD .none, indirect := y.getD .none }
    else none

variable {s : Sentence}

theorem Fills.significant_eq (h : s.Fills line) : significant line = s.words.map Text.lower := by
  obtain ⟨ws, hline, hascii, hwords⟩ := h
  rw [significant_of_spaced hline hascii, List.filter_map, ← hwords]
  rfl

theorem Fills.isAscii_verb (h : s.Fills line) : Text.IsAscii s.verb := by
  obtain ⟨ws, -, hascii, hwords⟩ := h
  have hmem : s.verb ∈ ws.filter fun w ↦ !articles.contains (Text.lower w) := by
    rw [hwords]
    exact List.mem_cons_self
  exact hascii _ (List.mem_filter.1 hmem).1

theorem Proper.phrases_eq (h : s.Proper) :
    phrases (s.complements.map Text.lower) =
      (s.direct.map Text.lower, s.object.map Text.lower) := by
  have hdirect : ∀ w ∈ s.direct.map Text.lower, w ∉ prepositions := by
    simpa using fun w hw ↦ (h.direct w hw).1
  rw [complements, List.map_append, phrases_append hdirect]
  · cases hindirect : s.indirect <;> simp [Sentence.object, hindirect]
  · cases hindirect : s.indirect with
    | none => simp
    | some e => simpa using h.preposition e hindirect

theorem Proper.onlyDirection?_eq (h : s.Proper) :
    onlyDirection? (s.complements.map Text.lower) = none := by
  obtain ⟨verb, direct, indirect⟩ := s
  cases indirect with
  | none =>
    match direct with
    | [] => rfl
    | [w] => exact (h.direct w List.mem_cons_self).2
    | _ :: _ :: _ => rfl
  | some e =>
    obtain ⟨preposition, object⟩ := e
    match direct, object with
    | [], [] => exact absurd rfl (h.object _ rfl).1
    | [], _ :: _ => rfl
    | [_], _ => rfl
    | _ :: _ :: _, _ => rfl

theorem fill_eq_meaning :
    fill g (Text.upper s.verb) (s.direct.map Text.lower)
      (s.object.map Text.lower) = s.meaning g := by
  rw [fill, meaning]
  refine congrArg _ (funext fun x ↦ congrArg _ (funext fun y ↦ ?_))
  cases s.direct <;> cases s.object <;> cases x <;> cases y <;> simp

theorem Proper.resolve_eq (h : s.Proper) (hline : s.Fills line)
    (hknown : g.verbs.contains (.text (Text.upper s.verb))) :
    resolve g walkVerb line = s.meaning g := by
  have hwords : onlyDirection? (s.words.map Text.lower) = none := by
    rw [words, List.map_cons]
    cases hcomplements : s.complements with
    | nil => exact h.verb
    | cons => rfl
  have hverb : Text.upper (Text.lower s.verb) = Text.upper s.verb := hline.isAscii_verb.upper_lower
  rw [words, List.map_cons] at hwords
  rw [resolve, hline.significant_eq, words, List.map_cons]
  simp only [hwords]
  rw [hverb, resolveVerb, if_neg (by simpa using hknown), h.onlyDirection?_eq, ite_self,
    h.phrases_eq]
  exact fill_eq_meaning

theorem exists_matchPhrase (hs : g.store.Labelled) (phrase : List String) :
    ∃ x, matchPhrase g phrase = .ok x := by
  rw [matchPhrase]
  split
  · exact ⟨none, rfl⟩
  · next hphrase =>
    classical
    exact ⟨_, match?_eq hs (by simpa using hphrase)⟩

theorem exists_meaning (hs : g.store.Labelled) (s : Sentence) : ∃ c, s.meaning g = .ok c := by
  obtain ⟨x, hx⟩ := exists_matchPhrase hs (s.direct.map Text.lower)
  obtain ⟨y, hy⟩ := exists_matchPhrase hs (s.object.map Text.lower)
  rw [meaning, hx, hy]
  exact ⟨_, rfl⟩

end Sentence

/-- A line that a sentence with a known verb fills has the meaning of the sentence, which never
fails to be found if objects are labelled; and whatever the line, a command has a known verb, or the
one for walking, and is about directions and defined objects only. -/
theorem lines_mean_sentences (g : Game) (walkVerb : Value) (line : String) :
    (∀ s : Sentence, s.Proper → s.Fills line → g.verbs.contains (.text (Text.upper s.verb)) →
      resolve g walkVerb line = s.meaning g ∧ (g.store.Labelled → ∃ c, s.meaning g = .ok c)) ∧
    ∀ c, resolve g walkVerb line = .ok (some c) → Meant g walkVerb c :=
  ⟨fun s hs hline hknown ↦ ⟨hs.resolve_eq hline hknown, fun hlabelled ↦ s.exists_meaning hlabelled⟩,
    fun _ ↦ meant_of_resolve⟩

def takingLamps : Game := { twoLamps with verbs := [(.text "TAKE", .text "TAKE")] }

def takeLamp : Sentence where
  verb := "Take"
  direct := ["brass", "LAMP"]
  indirect := some ("From", ["hall-lamp"])

theorem take_lamp_resolved :
    takeLamp.Proper ∧ takeLamp.Fills "\tthe Take a brass the LAMP\n\n From  The hall-lamp " ∧
      takingLamps.store.Labelled ∧
      ∃ c, resolve takingLamps (.text "WALK")
        "\tthe Take a brass the LAMP\n\n From  The hall-lamp " = .ok (some c) ∧
        c.verb.string? = some "TAKE" ∧ c.direct.string? = some "HALL-LAMP" ∧
        c.indirect.string? = some "HALL-LAMP" ∧
        Meant takingLamps (.text "WALK") c := by
  have hproper : takeLamp.Proper := by
    constructor
    · decide +kernel
    · decide +kernel
    · intro e he
      obtain rfl := Option.some.inj he
      decide +kernel
    · intro e he
      obtain rfl := Option.some.inj he
      decide +kernel
  have hfills : takeLamp.Fills "\tthe Take a brass the LAMP\n\n From  The hall-lamp " :=
    ⟨_, Text.spaced_iff.2 rfl, by decide +kernel, by decide +kernel⟩
  obtain ⟨hsentences, hcommands⟩ := lines_mean_sentences takingLamps (.text "WALK")
    "\tthe Take a brass the LAMP\n\n From  The hall-lamp "
  obtain ⟨hmeaning, hfound⟩ := hsentences takeLamp hproper hfills (by decide +kernel)
  obtain ⟨found, hc⟩ := hfound labelled_twoLamps
  have hparts : (takeLamp.meaning takingLamps).toOption.join.map
      (fun c ↦ (c.verb.string?, c.direct.string?, c.indirect.string?)) =
        some (some "TAKE", some "HALL-LAMP", some "HALL-LAMP") := by
    decide +kernel
  rw [hc] at hmeaning hparts
  cases found with
  | none => cases hparts
  | some c =>
    obtain ⟨hverb, hrest⟩ := Prod.mk.inj (Option.some.inj hparts)
    obtain ⟨hdirect, hindirect⟩ := Prod.mk.inj hrest
    exact ⟨hproper, hfills, labelled_twoLamps, c, hmeaning, hverb, hdirect,
      hindirect, hcommands c hmeaning⟩

end Resolver

end Fable
