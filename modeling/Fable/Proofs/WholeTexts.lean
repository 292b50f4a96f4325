import Fable.Proofs.Nesting

namespace Fable

namespace Json

open Text

variable {stamp : Nat} {o o' : Origin}

def atEnd (p : Value × List Char) : Except Trouble Value :=
  if (skip p.2).isEmpty then .ok p.1 else trouble .extraData (skip p.2)

theorem readAll_eq {source : String} (h : source.toList.head? ≠ some '\ufeff') :
    readAll o stamp source =
      (value o stamp (2 * source.toList.length + 2) (skip source.toList)).bind atEnd := by
  dsimp only [readAll]
  rw [if_neg h]
  refine congrArg (Except.bind _) (funext fun p ↦ ?_)
  rw [atEnd]
  rcases skip p.2 with _ | ⟨c, rest⟩ <;> rfl

theorem atEnd_unifyEnds (v : Value) (rest : List Char) :
    (atEnd (v, rest) = .ok v ∧ atEnd (merged v, unifyEnds rest) = .ok (merged v)) ∨
      ∃ m n, atEnd (v, rest) = .error ⟨.extraData, m⟩ ∧
        atEnd (merged v, unifyEnds rest) = .error ⟨.extraData, n⟩ := by
  rw [atEnd, atEnd, skip_unifyEnds]
  rcases skip_cases rest with hskip | ⟨c, s, hskip, hc, -⟩
  · rw [hskip]
    exact .inl ⟨rfl, rfl⟩
  · rw [hskip, unifyEnds_cons hc]
    exact .inr ⟨_, _, rfl, rfl⟩

/-- A text with its line ends made alike is read as the text is, and complained about as the text
is. A given text may be refused where a file is not. -/
theorem readAll_unifyLineEnds (o o' : Origin) (ho : o' = .given → o = .given)
    (stamp : Nat) (source : String) :
    (∃ v, readAll o stamp source = .ok v ∧ readAll o' 0 (unifyLineEnds source) = .ok (merged v)) ∨
      ∃ c m, readAll o stamp source = .error ⟨c, m⟩ ∧
        ((o ≠ o' ∧ (c = .unicodeEscape ∨ c = .digits)) ∨
          ∃ n, readAll o' 0 (unifyLineEnds source) = .error ⟨c, n⟩) := by
  have hlist : (unifyLineEnds source).toList = unifyEnds source.toList := String.toList_ofList
  have hmark : (unifyEnds source.toList).head? = some '\ufeff' ↔
      source.toList.head? = some '\ufeff' :=
    head?_unifyEnds (by decide) (by decide) _
  by_cases h : source.toList.head? = some '\ufeff'
  · rw [readAll, readAll, hlist]
    dsimp only
    rw [if_pos h, if_pos (hmark.2 h)]
    exact .inr ⟨_, _, rfl, .inr ⟨_, rfl⟩⟩
  have h' : (unifyLineEnds source).toList.head? ≠ some '\ufeff' := by rwa [hlist, Ne, hmark]
  rw [readAll_eq h, readAll_eq h', hlist, skip_unifyEnds]
  obtain ⟨-, hlength, hunified⟩ := later_skip source.toList
  have hvalue := (keepsStep ho stamp (2 * source.toList.length + 2)).value
    (m := 2 * (unifyEnds source.toList).length + 2) (skip source.toList) (by omega) (by omega)
  generalize value o stamp (2 * source.toList.length + 2) (skip source.toList) = x at hvalue ⊢
  generalize value o' 0 (2 * (unifyEnds source.toList).length + 2)
    (unifyEnds (skip source.toList)) = y at hvalue ⊢
  cases hvalue with
  | @read v rest =>
    rcases atEnd_unifyEnds v rest with ⟨hv, hv'⟩ | ⟨m, n, hm, hn⟩
    · exact .inl ⟨v, hv, hv'⟩
    · exact .inr ⟨_, m, hm, .inr ⟨n, hn⟩⟩
  | failed c m n => exact .inr ⟨c, m, rfl, .inr ⟨n, rfl⟩⟩
  | @refused c m _ hne hc => exact .inr ⟨c, m, rfl, .inl ⟨hne, hc⟩⟩

def Renumbers (v : Value) : Prop :=
  ∀ next, Written (numbered next v).1 ∧ merged (numbered next v).1 = merged v

theorem numberedItems_eq {xs : List Value} (h : ∀ x ∈ xs, Renumbers x)
    (next : Nat) (done : List Value) :
    ∃ ys, (numberedItems next done xs).1 = done.reverse ++ ys ∧ (∀ y ∈ ys, Written y) ∧
      ys.map merged = xs.map merged := by
  induction xs generalizing next done with
  | nil => exact ⟨[], by simp [numberedItems], by simp, rfl⟩
  | cons x xs ih =>
    obtain ⟨hx, hxs⟩ := List.forall_mem_cons.1 h
    obtain ⟨hwritten, hmerged⟩ := hx next
    obtain ⟨ys, hys, hall, hsame⟩ := ih hxs (numbered next x).2 ((numbered next x).1 :: done)
    refine ⟨(numbered next x).1 :: ys, by simp [numberedItems, hys], ?_, ?_⟩
    · exact List.forall_mem_cons.2 ⟨hwritten, hall⟩
    · rw [List.map_cons, List.map_cons, hmerged, hsame]

theorem numberedEntries_eq {es : List (Value × Value)} (h : ∀ e ∈ es, Renumbers e.2) (next : Nat)
    (done : List (Value × Value)) :
    ∃ fs, (numberedEntries next done es).1 = done.reverse ++ fs ∧ (∀ f ∈ fs, Written f.2) ∧
      (fs.map fun f ↦ (f.1, merged f.2)) = es.map fun e ↦ (e.1, merged e.2) := by
  induction es generalizing next done with
  | nil => exact ⟨[], by simp [numberedEntries], by simp, rfl⟩
  | cons e es ih =>
    obtain ⟨he, hes⟩ := List.forall_mem_cons.1 h
    obtain ⟨hwritten, hmerged⟩ := he next
    obtain ⟨fs, hfs, hall, hsame⟩ :=
      ih hes (numbered next e.2).2 ((e.1, (numbered next e.2).1) :: done)
    refine ⟨(e.1, (numbered next e.2).1) :: fs, by simp [numberedEntries, hfs], ?_, ?_⟩
    · exact List.forall_mem_cons.2 ⟨hwritten, hall⟩
    · rw [List.map_cons, List.map_cons, hmerged, hsame]

theorem Written.renumbers {v : Value} (h : Written v) : Renumbers v := by
  intro next
  induction h generalizing next with
  | @list xs _ ih =>
    obtain ⟨ys, hys, hall, hsame⟩ := numberedItems_eq (fun x hx next ↦ ih x hx next) next []
    have hlist : (numbered next (.list xs)).1 = .list ys := congrArg (Value.list · 0) hys
    rw [hlist, merged_list, merged_list, hsame]
    exact ⟨.list hall, rfl⟩
  | @dict es hes _ ih =>
    obtain ⟨fs, hfs, hall, hsame⟩ := numberedEntries_eq (fun e he next ↦ ih e he next) next []
    have hdict : (numbered next (.dict es)).1 = .dict fs := congrArg (Value.dict · 0) hfs
    have hkeys : fs.map (·.1) = es.map (·.1) := by
      have h := congrArg (List.map (·.1)) hsame
      rwa [List.map_map, List.map_map] at h
    rw [hdict, merged_dict, merged_dict, hsame]
    refine ⟨.dict ?_ hall, rfl⟩
    intro f hf
    obtain ⟨e, he, hef⟩ := List.mem_map.1 (hkeys ▸ List.mem_map_of_mem hf : f.1 ∈ es.map (·.1))
    exact hef ▸ hes e he
  | none => exact ⟨.none, rfl⟩
  | bool b => exact ⟨.bool b, rfl⟩
  | int n => exact ⟨.int n, rfl⟩
  | float x => exact ⟨.float x, rfl⟩
  | nan _ => exact ⟨.nan next, rfl⟩
  | text s => exact ⟨.text s, rfl⟩

theorem read_file (stamp : Nat) (source : String) :
    read .file stamp source = readAll .file stamp source := by
  rw [read]
  cases readAll .file stamp source <;> rfl

/-- How lines end in a file makes no difference to what is read from it. -/
theorem read_file_unifyLineEnds (source : String) :
    (∃ v, read .file 0 source = .ok v ∧ read .file 0 (unifyLineEnds source) = .ok (merged v)) ∨
      ∃ c m n, read .file 0 source = .error ⟨c, m⟩ ∧
        read .file 0 (unifyLineEnds source) = .error ⟨c, n⟩ := by
  rw [read_file, read_file]
  rcases readAll_unifyLineEnds .file .file nofun 0 source with h | ⟨c, m, h, ⟨hne, -⟩ | ⟨n, hn⟩⟩
  · exact .inl h
  · exact absurd rfl hne
  · exact .inr ⟨c, m, n, h, hn⟩

/-- What is read when a text is given is read from a file as well. -/
theorem read_file_of_given {source : String} {v : Value} (h : read .given stamp source = .ok v) :
    Written v ∧ read .file 0 (unifyLineEnds source) = .ok (merged v) := by
  obtain ⟨u, hu, h⟩ := exists_of_bind_ok h
  obtain ⟨hwritten, hmerged⟩ := (written_of_readAll hu).renumbers stamp
  cases h
  refine ⟨hwritten, ?_⟩
  rw [read_file]
  rcases readAll_unifyLineEnds .given .file nofun stamp source with ⟨w, hw, h⟩ | ⟨c, m, hm, -⟩
  · cases hu.symm.trans hw
    rw [h, hmerged]
  · cases hu.symm.trans hm

/-- A text that is refused when it is given is refused in a file, but perhaps for half of a pair
that stands alone or for a number of too many digits. -/
theorem read_file_of_refused {source : String} {c : Complaint} {m : Nat}
    (h : read .given stamp source = .error ⟨c, m⟩) :
    (c = .unicodeEscape ∨ c = .digits) ∨ ∃ n,
    read .file 0 (unifyLineEnds source) = .error ⟨c, n⟩ := by
  rw [read_file]
  rcases readAll_unifyLineEnds .given .file nofun stamp source with ⟨v, hv, -⟩ | ⟨d, k, hd, hrest⟩
  · rw [read, hv] at h
    cases h
  · rw [read, hd] at h
    cases h
    exact hrest.imp And.right id

end Json

/-- What is read of the bytes of a text is the text with its line ends made alike. -/
theorem World.fileText?_toUTF8 (text : String) :
    fileText? text.toUTF8 = some (Text.unifyLineEnds text) := by
  have hbytes : String.fromUTF8? text.toUTF8 = some text := by
    simp only [String.fromUTF8?]
    simp
    exact ⟨text.isValidUTF8, rfl⟩
  rw [fileText?, hbytes, Option.map_some]

end Fable
