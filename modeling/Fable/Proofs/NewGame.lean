import Fable.Proofs.Calls
import Fable.Proofs.Copies

namespace Fable

def Record.you (player : Value) : Record where
  id := player
  desc := .text "you"

namespace Store

def ofPlayer (player : Value) : Store where
  records := [(player, .you player)]
  arrivals := [⟨player, .none⟩]
  made := 1

variable {player : Value}

theorem define_player (h : player.hashable) :
    define player { fields := [(.desc, .text "you")] } {} = .ok (.object 0) (ofPlayer player) := by
  have hr : refusal? {} player { fields := [(.desc, .text "you")] } = none := by
    simp [refusal?, obstacle?, Value.isNone, h]
  simp only [define, hr]
  rfl

theorem define_player_of_not_hashable (h : ¬ player.hashable) :
    define player { fields := [(.desc, .text "you")] } {} = .error .mismatch {} := by
  have hr : refusal? {} player { fields := [(.desc, .text "you")] } = some .mismatch := by
    simp [refusal?, obstacle?, Value.isNone, h]
  simp only [define, hr]

theorem find?_ofPlayer_text (x : String) :
    (ofPlayer player).find? (.text x) =
      if player.string? = some x then some (.you player) else none := by
  rw [find?_eq_lookup? _ rfl, lookup?, ofPlayer, Table.find?_cons,
    Value.alike_eq_of_isText player (show (Value.text x).isText from rfl)]
  simp only [beq_iff_eq, Value.string?]
  rfl

theorem parent_ofPlayer (x : String) : (ofPlayer player).parent (.text x) = .none := by
  rw [parent, find?_ofPlayer_text]
  split
  · next r h =>
    split at h
    · rw [← Option.some.inj h]
      rfl
    · simp at h
  · rfl

theorem nested_ofPlayer : (ofPlayer player).Nested where
  placed x := by
    rw [parent_ofPlayer]
    exact Value.isPlace_none
  acyclic := by
    have hl : (ofPlayer player).links = fun _ ↦ none := by
      funext x
      rw [links, parent_ofPlayer]
      rfl
    rw [hl]
    exact Links.acyclic_empty

theorem remembersFirst_ofPlayer : (ofPlayer player).RemembersFirst (.you player) where
  mem := List.mem_singleton.2 rfl
  serial := rfl
  unique _ hq _ := List.mem_singleton.1 hq
  made := Nat.one_pos

theorem refersBelow_parts_you (h : player.hashable) :
    ∀ p ∈ (Record.you player).parts, p.2.refersBelow 0 := by
  have hflags : Value.itemsReferBelow 0 (Members.inOrder {}) := rfl
  simp [Record.parts, Record.you, Value.refersBelow, Value.itemsReferBelow,
    Value.entriesReferBelow, hflags, Value.refersBelow_of_hashable 0 player h]

theorem namedPlainly_parts_you (h : player.hashable) :
    ∀ p ∈ (Record.you player).parts, p.2.namedPlainly := by
  have hflags : (Members.inOrder {}).all Value.isPlainName := rfl
  simp [Record.parts, Record.you, Value.namedPlainly, Value.itemsNamedPlainly,
    Value.entriesNamedPlainly, hflags, Value.namedPlainly_of_hashable player h]

end Store

theorem Game.exists_start (config : Config) {t : Twister} (hp : config.playerId.hashable)
    (ht : Twister.ofValue config.seed = .ok t) : ∃ g, Game.start config = .ok g := by
  have hcleared : Store.cleared {} = {} := rfl
  rw [Game.start, Play.reset, Runs.get_bind, Runs.get_bind]
  simp only [hcleared, Store.define_player hp, ht]
  exact ⟨_, rfl⟩

theorem Game.exists_eq_of_start {config : Config} {g : Game} (h : Game.start config = .ok g) :
    config.playerId.hashable ∧ ∃ generator log, g = {
      config
      store := .ofPlayer config.playerId
      globals := reserved config.playerId config.loadMax
      generator
      log
      starts := 1 } := by
  have hreset : Play.reset { config } = .ok () g := by
    rw [Game.start] at h
    split at h
    · next u g' he =>
      rw [he, Except.ok.inj h]
    · simp at h
  have hcleared : Store.cleared {} = {} := rfl
  rw [Play.reset, Runs.get_bind, Runs.get_bind] at hreset
  by_cases hp : config.playerId.hashable
  · simp only [hcleared, Store.define_player hp] at hreset
    cases hseed : Twister.ofValue config.seed with
    | error f =>
      rw [hseed] at hreset
      cases hreset
    | ok t =>
      rw [hseed] at hreset
      cases hreset
      exact ⟨hp, _, _, rfl⟩
  · simp only [hcleared, Store.define_player_of_not_hashable hp] at hreset
    cases hreset

theorem Game.store_start {config : Config} {g : Game} (h : Game.start config = .ok g) :
    g.store = .ofPlayer config.playerId ∧ config.playerId.hashable := by
  obtain ⟨hp, -, -, rfl⟩ := exists_eq_of_start h
  exact ⟨rfl, hp⟩

end Fable
