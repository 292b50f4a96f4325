import Fable.Proofs.Preparation

namespace Fable

namespace Cli

open Runs World

/-- The world is played with the script, to this result and in this game. -/
def Played (p : PlayRequest) (find : String → Lookup) (w : Spec) (v : Value) (k : Game) : Prop :=
  Spec.load find p.world = .ok w ∧ ∃ g start h path bytes t, Game.start p.config = .ok g ∧
    prepare w g = .ok start h ∧ p.script = some path ∧ find (tidyPath path) = .ok bytes ∧
      fileText? bytes = some t ∧
    Play.run Play.exec (Play.resolve (.text "WALK")) (.script true) ((Text.scriptLines t).map .text)
      start h = .ok v k

variable {p : PlayRequest} {find : String → Lookup} {w : Spec} {v : Value}
  {k : Game} {level : Level}
  {typed : List String}

/-- The form in which a session is shown has no part in it. -/
theorem played_json (json : Bool) :
    Played { p with json } find w v k ↔ Played p find w v k := Iff.rfl

theorem Played.play_eq (h : Played p find w v k) (level : Level) (typed : List String) :
    play p level find typed = finished p level w v k := by
  obtain ⟨hload, g, start, h, path, bytes, t, hg, hprepare, hscript, hfind, htext, hrun⟩ := h
  unfold play
  simp only [hload, playWorld, hg, hprepare, hscript, Option.map_some, hfind, htext, playFrom, hrun]

theorem exists_played (hscript : p.script.isSome) (hexit : (play p level find typed).exit = 0) :
    ∃ w v k, Played p find w v k := by
  have hfailed (log : String) (f : Fault) : (failed log f).exit = 1 := by cases f <;> rfl
  have hcrashed (log : String) (f : Fault) : (crashed log f).exit = 1 := rfl
  have hbroken (f : Fault) (g : Game) : (broken p level f g).exit = 1 := by
    unfold broken
    dsimp only
    split <;> rfl
  obtain ⟨path, hpath⟩ := Option.isSome_iff_exists.1 hscript
  unfold play at hexit
  cases hload : Spec.load find p.world with
  | error f => simp [hload, hfailed] at hexit
  | ok w =>
    simp only [hload, playWorld, hpath, Option.map_some] at hexit
    cases hg : Game.start p.config with
    | error e => simp [hg, hfailed] at hexit
    | ok g =>
      cases hprepare : prepare w g with
      | error e h => simp [hg, hprepare, hfailed] at hexit
      | ok start h =>
        cases hfind : find (tidyPath path) with
        | error e => simp [hg, hprepare, hfind, hcrashed] at hexit
        | ok bytes =>
          cases htext : fileText? bytes with
          | none => simp [hg, hprepare, hfind, htext, hcrashed] at hexit
          | some t =>
            simp only [hg, hprepare, hfind, htext, playFrom] at hexit
            split at hexit
            · next v k hrun =>
              exact ⟨w, v, k, hload, g, start, h, path, bytes, t, hg, hprepare,
                hpath, hfind, htext, hrun⟩
            · simp [hbroken] at hexit

/-- What was written is text, unless the player died of something that is none. -/
theorem Played.heard (h : Played p find w v k) : ∃ reason, v = k.result reason ∧ k.Worded ∧
    ((∀ x ∈ k.written, x.isText) ↔ (reason = .died → k.epitaph.isText)) := by
  obtain ⟨hload, g, start, h, path, bytes, t, hg, hprepare, -, -, -, hrun⟩ := h
  obtain ⟨x, hx, hw⟩ := exists_of_load hload
  have hh := textual_of_prepare hx hw hg rfl ⟨rfl, rfl⟩ hprepare
  have hheard := Play.Speaking.session true ((Text.scriptLines t).map .text) start h hh
  have hnoted (o : Game) (ho : o.Worded) (reason : Reason) : (o.noted (.ended reason)).Worded :=
    ho.of_told ⟨rfl, rfl, rfl, rfl, rfl, rfl, rfl⟩ rfl
  obtain ⟨reason, o, rfl, rfl, ⟨hs, hstops⟩ | hs⟩ := Play.session_of_run_ok hrun
  · rw [exit?_of_ok hs, after_of_ok hs] at hheard
    have hreason : reason ≠ .died := by rcases hstops with rfl | rfl <;> nofun
    exact ⟨reason, rfl, hnoted o hheard.toWorded reason,
      iff_of_true hheard.written fun h ↦ absurd h hreason⟩
  · rw [exit?_of_error hs, after_of_error hs] at hheard
    by_cases hreason : reason = .died
    · subst hreason
      exact ⟨.died, rfl, hnoted o hheard.toWorded .died,
        fun h _ ↦ hheard.written.1 h, fun h ↦ hheard.written.2 (h rfl)⟩
    · have ho : o.Textual := by
        cases reason with
        | died => exact absurd rfl hreason
        | _ => exact hheard
      exact ⟨reason, rfl, hnoted o ho.toWorded reason,
        iff_of_true ho.written fun h ↦ absurd h hreason⟩

theorem string?_eq_display {v : Value} (hv : v.isText) : v.string? = some v.display := by
  cases v <;> first | rfl | cases hv

theorem joined?_eq {vs : List Value} (hvs : ∀ v ∈ vs, v.isText) :
    joined? vs = some (String.join (vs.map Value.display)) := by
  have hmap : vs.mapM Value.string? = some (vs.map Value.display) := by
    induction vs with
    | nil => rfl
    | cons v vs ih =>
      obtain ⟨hv, hvs⟩ := List.forall_mem_cons.1 hvs
      rw [List.mapM_cons, string?_eq_display hv, ih hvs]
      rfl
  rw [joined?, hmap, Option.map_some]

theorem isText_of_joined? {vs : List Value} {t : String} (h : joined? vs = some t) :
    ∀ v ∈ vs, v.isText := by
  obtain ⟨ts, hts, -⟩ := Option.map_eq_some_iff.1 h
  clear h
  induction vs generalizing ts with
  | nil => exact List.forall_mem_nil _
  | cons v vs ih =>
    rw [List.mapM_cons] at hts
    obtain ⟨x, hx, hts⟩ := Option.bind_eq_some_iff.1 hts
    obtain ⟨xs, hxs, -⟩ := Option.bind_eq_some_iff.1 hts
    refine List.forall_mem_cons.2 ⟨?_, ih xs hxs⟩
    cases v <;> first | rfl | cases hx

theorem interleaved_nil (prompt : String) (n : Nat) (vs : List Value) :
    interleaved prompt [] n vs = vs.map shown := by
  induction vs generalizing n with
  | nil => rfl
  | cons v vs ih =>
    rw [interleaved, List.takeWhile_nil, List.dropWhile_nil, ih]
    rfl

theorem screen_eq {g : Game} (hg : g.prompts = #[]) (hwritten : ∀ v ∈ g.written, v.isText)
    (hplain : ∀ v ∈ g.written, plain v.display = v.display) :
    screen g = String.join (g.written.toList.map Value.display) := by
  have hshown : g.written.toList.map shown = g.written.toList.map Value.display := by
    refine List.map_congr_left fun v hv ↦ ?_
    have htext := hwritten v (Array.mem_toList_iff.1 hv)
    have hv' := hplain v (Array.mem_toList_iff.1 hv)
    cases v <;> first | exact hv' | cases htext
  rw [screen, hg, interleaved_nil, hshown]

variable {reason : Reason} {score moves : Value} {diagnostics : List String}

theorem exists_of_summary {line : String} (h : summary w reason score moves = .ok line) :
    (∃ t, score.toText = .ok t) ∧ ∃ t, moves.toText = .ok t := by
  obtain ⟨t, ht, h⟩ := exists_of_bind_ok h
  obtain ⟨u, hu, -⟩ := exists_of_bind_ok h
  exact ⟨⟨t, ht⟩, u, hu⟩

/-- A result of which there is a summary can be printed, whatever the transcript. -/
theorem exists_pretty_result (hscore : score.IsTally) (hmoves : moves.IsTally) {line : String}
    (h : summary w reason score moves = .ok line) (diagnostics : List String) (t : String) :
    ∃ u, Json.pretty 0 (result w reason score moves diagnostics t) = .ok u := by
  obtain ⟨⟨a, ha⟩, b, hb⟩ := exists_of_summary h
  refine Json.exists_pretty_dict (by simp) ?_ 0
  simp only [List.forall_mem_cons, List.not_mem_nil, false_imp_iff, implies_true, and_true]
  refine ⟨⟨_, rfl⟩, Json.exists_pretty_of_isTally hscore ha 1,
    Json.exists_pretty_of_isTally hmoves hb 1, Json.exists_pretty_list ?_ 0, ⟨_, rfl⟩, _, rfl⟩
  intro x hx
  obtain ⟨d, -, rfl⟩ := List.mem_map.1 hx
  exact ⟨_, rfl⟩

theorem isText_of_closing (hp : p.json) {written : List Value} {t : String}
    (h : closing p w reason score moves diagnostics written = .ok t) : ∀ v ∈ written, v.isText := by
  rw [closing, if_pos hp] at h
  cases hjoined : joined? written with
  | none =>
    rw [hjoined] at h
    cases h
  | some u => exact isText_of_joined? hjoined

theorem exists_closing_json (hp : p.json) (hscore : score.IsTally)
    (hmoves : moves.IsTally) {line : String} (h : summary w reason score moves = .ok line)
    (diagnostics : List String) {written : List Value} (hwritten : ∀ v ∈ written, v.isText) :
    ∃ u, Json.pretty 0
      (result w reason score moves diagnostics (String.join (written.map Value.display))) = .ok u ∧
      closing p w reason score moves diagnostics written = .ok (u ++ "\n") := by
  obtain ⟨u, hu⟩ :=
    exists_pretty_result hscore hmoves h diagnostics (String.join (written.map Value.display))
  refine ⟨u, hu, ?_⟩
  rw [closing, if_pos hp, joined?_eq hwritten]
  dsimp only
  rw [hu]
  rfl

theorem finished_exit : (finished p level w (.outcome reason score moves diagnostics) k).exit = 0 ↔
    ∃ t, closing p w reason score moves diagnostics k.written.toList = .ok t := by
  unfold finished
  cases h : closing p w reason score moves diagnostics k.written.toList with
  | ok t => exact iff_of_true (by simp [h]) ⟨t, rfl⟩
  | error f => exact iff_of_false (by simp [h, crashed]) (by simp)

theorem finished_stdout {t : String}
    (h : closing p w reason score moves diagnostics k.written.toList = .ok t) :
    (finished p level w (.outcome reason score moves diagnostics) k).stdout =
    transcript p k ++ t := by
  unfold finished
  simp [h, Outcome.stdout]

/-- What is shown as text is also shown as JSON, with the same result, unless the player died of
something that is no text. -/
theorem text_and_json_agree (hscript : p.script.isSome) (level : Level) (typed : List String)
    (hexit : (play { p with json := false } level find typed).exit = 0) :
    ∃ w reason score moves diagnostics k line,
      Played p find w (.outcome reason score moves diagnostics) k ∧
      summary w reason score moves = .ok line ∧
      (play { p with json := false } level find typed).stdout = screen k ++ line ∧
      ((play { p with json := true } level find typed).exit = 0 ↔
        (reason = .died → k.epitaph.isText)) ∧
      ((play { p with json := true } level find typed).exit = 0 → ∃ t u,
        joined? k.written.toList = some t ∧
        Json.pretty 0 (result w reason score moves diagnostics t) = .ok u ∧
        (play { p with json := true } level find typed).stdout = u ++ "\n" ∧
        ((∀ x ∈ k.written, plain x.display = x.display) →
          t ++ line = (play { p with json := false } level find typed).stdout)) := by
  obtain ⟨w, v, k, hplayed⟩ := exists_played (p := { p with json := false }) hscript hexit
  rw [played_json] at hplayed
  obtain ⟨reason, rfl, hk, hwritten⟩ := hplayed.heard
  have htext := ((played_json false).2 hplayed).play_eq level typed
  have hjson := ((played_json true).2 hplayed).play_eq level typed
  rw [Game.result] at htext hjson
  have hsummary : ∃ line, summary w reason (k.globalOr "SCORE" (.int 0))
      (k.globalOr "MOVES" (.int 0)) = .ok line := by
    rw [htext] at hexit
    exact finished_exit.1 hexit
  obtain ⟨line, hline⟩ := hsummary
  have hscreen : (play { p with json := false } level find typed).stdout = screen k ++ line := by
    rw [htext]
    exact finished_stdout hline
  have hprinted {written : List Value} (hwritten : ∀ v ∈ written, v.isText) :=
    exists_closing_json (p := { p with json := true }) rfl hk.score hk.moves
      hline k.diagnostics hwritten
  refine ⟨w, reason, _, _, _, k, line, hplayed, hline, hscreen, ?_, ?_⟩
  · rw [hjson, finished_exit, ← hwritten]
    constructor
    · rintro ⟨t, ht⟩ v hv
      exact isText_of_closing rfl ht v (Array.mem_toList_iff.2 hv)
    · intro h
      obtain ⟨u, -, hu⟩ := hprinted fun v hv ↦ h v (Array.mem_toList_iff.1 hv)
      exact ⟨_, hu⟩
  · intro h
    rw [hjson] at h ⊢
    obtain ⟨s, hs⟩ := finished_exit.1 h
    have htexts := isText_of_closing rfl hs
    obtain ⟨u, hu, hclosing⟩ := hprinted htexts
    refine ⟨_, u, joined?_eq htexts, hu, ?_, fun hplain ↦ ?_⟩
    · rw [finished_stdout hclosing, transcript, if_pos rfl, prompts, hk.prompts]
      rfl
    · rw [hscreen, screen_eq hk.prompts (fun v hv ↦ htexts v (Array.mem_toList_iff.2 hv)) hplain]

def pitLines (death : String) : List String :=
  ["\x7b\"start\":\"START\",",
    "\"objects\":[\x7b\"id\":\"START\",\"properties\":\x7b\"NORTH\":\"PIT\"\x7d\x7d,",
    "\x7b\"id\":\"PIT\",\"properties\":\x7b\"DEATH\":", death, "\x7d\x7d]\x7d"]

def pitText (death : String) : String := String.ofList ((pitLines death).flatMap String.toList)

def pitFiles (death : String) : String → Lookup := fun path ↦
  .ok (if path = "w" then pitText death else "north").toUTF8

def intoPit (json : Bool) : PlayRequest := { world := "w", script := some "s", json }

theorem load_pit (death : String) (h : '\r' ∉ (pitText death).toList) :
    Spec.load (pitFiles death) "w" = Spec.ofText "w" (pitText death) := by
  have hfile : pitFiles death (tidyPath "w") = .ok (pitText death).toUTF8 := by
    rw [tidyPath_w]
    rfl
  rw [load_of_file isPath_w hfile (fileText?_of_notMem h), tidyPath_w]

theorem pitFiles_s (death : String) : pitFiles death (tidyPath "s") = .ok "north".toUTF8 := by
  rw [tidyPath_eq (by cbv) (by cbv) (by decide)]
  rfl

def fall : String := "\"You fall.\""

def fallsPlainly : Bool :=
  match Spec.load (pitFiles fall) (intoPit false).world, Game.start (intoPit false).config with
  | .ok w, .ok g => match prepare w g with
    | .ok start h => (after (Play.run Play.exec (Play.resolve (.text "WALK")) (.script true)
        ((Text.scriptLines "north").map .text) start) h).written.all fun x ↦
          plain x.display == x.display
    | .error _ _ => false
  | _, _ => false

theorem fall_shown_alike :
    ∃ w reason score moves diagnostics k t u line,
      Played (intoPit false) (pitFiles fall) w (.outcome reason score moves diagnostics) k ∧
      (play (intoPit true) .warning (pitFiles fall) []).exit = 0 ∧
      Json.pretty 0 (result w reason score moves diagnostics t) = .ok u ∧
      (play (intoPit true) .warning (pitFiles fall) []).stdout = u ++ "\n" ∧
      summary w reason score moves = .ok line ∧
      t ++ line = (play (intoPit false) .warning (pitFiles fall) []).stdout ∧
      t ++ line =
        "> north\nPIT\nYou fall.\n\n    ****  You have died  ****\n\n[Untitled: died, score 0, 0 moves]\n" := by
  have hload := load_pit fall (by rw [pitText, String.toList_ofList]; decide +kernel)
  have hshown : (play (intoPit false) .warning (pitFiles fall) []).exit = 0 ∧
      (play (intoPit true) .warning (pitFiles fall) []).exit = 0 ∧
      (play (intoPit false) .warning (pitFiles fall) []).stdout =
        "> north\nPIT\nYou fall.\n\n    ****  You have died  ****\n\n[Untitled: died, score 0, 0 moves]\n" ∧
      fallsPlainly = true := by
    unfold play fallsPlainly
    simp only [intoPit, hload, Option.map_some, pitFiles_s]
    unfold World.Spec.ofText Json.read Json.readAll
    rw [pitText, String.toList_ofList]
    decide +kernel
  obtain ⟨htext, hjson, hstdout, hplain⟩ := hshown
  obtain ⟨w, reason, score, moves, diagnostics, k, line, hplayed, hline, -, -, hagree⟩ :=
    text_and_json_agree (p := intoPit false) rfl .warning [] htext
  obtain ⟨t, u, -, hu, hprinted, hsame⟩ := hagree hjson
  have hpieces : ∀ x ∈ k.written, plain x.display = x.display := by
    obtain ⟨hw, g, start, h, path, bytes, lines, hg, hprepare, hpath, hfind, hlines, hrun⟩ :=
      hplayed
    cases hpath
    cases (pitFiles_s fall).symm.trans hfind
    obtain rfl : "north" = lines :=
      Option.some.inj ((fileText?_of_notMem (by decide)).symm.trans hlines)
    rw [fallsPlainly, hw, hg] at hplain
    simp only [hprepare, after_of_ok hrun, Array.all_eq_true', beq_iff_eq] at hplain
    exact hplain
  refine ⟨w, reason, score, moves, diagnostics, k, t, u, line, hplayed, hjson, hu, hprinted,
    hline, hsame hpieces, ?_⟩
  exact (hsame hpieces).trans hstdout

/-- As text the number is shown; as JSON nothing is. -/
theorem fatal_number_only_as_text :
    (play (intoPit false) .warning (pitFiles "5") []).exit = 0 ∧
      (play (intoPit false) .warning (pitFiles "5") []).stdout =
        "> north\nPIT\n5\n\n    ****  You have died  ****\n\n[Untitled: died, score 0, 0 moves]\n" ∧
      (play (intoPit true) .warning (pitFiles "5") []).exit = 1 ∧
      (play (intoPit true) .warning (pitFiles "5") []).stdout = "" ∧
      (play (intoPit true) .warning (pitFiles "5") []).crash = some .mismatch := by
  have hload := load_pit "5" (by rw [pitText, String.toList_ofList]; decide +kernel)
  unfold play
  simp only [intoPit, hload, Option.map_some, pitFiles_s]
  unfold World.Spec.ofText Json.read Json.readAll
  rw [pitText, String.toList_ofList]
  decide +kernel

end Cli

end Fable
