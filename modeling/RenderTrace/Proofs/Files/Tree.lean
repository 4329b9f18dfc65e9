import RenderTrace.Files.Tree

/-!
# Files after writing

A file is written where no directory stands, so a path that was followed through directories is
followed through the same ones afterwards (`locate_put`), and the written file is found at its end
(`find_of_write`). Whether a path can be written does not depend on what is written
(`Writable.exists_write`).
-/

namespace RenderTrace.FileTree

variable {t t' : FileTree} {p : Path} {place : List String} {e : FileEntry} {bytes : List UInt8}

theorem at?_put_self (h : t.at? place ≠ some .directory) : (t.put place e).at? place = some e := by
  unfold at? at h ⊢
  split at h
  · exact absurd rfl h
  · next habove =>
    rw [if_neg habove]
    exact List.lookup_cons_self

theorem at?_put_of_directory {place' : List String} (h : t.at? place ≠ some .directory)
    (hdirectory : t.at? place' = some .directory) :
    (t.put place e).at? place' = some .directory := by
  have hne : place' ≠ place := by
    rintro rfl
    exact h hdirectory
  unfold at? at hdirectory ⊢
  split at hdirectory
  · next habove => exact if_pos habove
  · next habove =>
    rw [if_neg habove, put, List.lookup_cons, beq_false_of_ne hne]
    exact hdirectory

theorem follow_put {start stop : List String} {name : String} (h : t.at? place ≠ some .directory)
    (hfollow : t.follow start name = .ok stop) : (t.put place e).follow start name = .ok stop := by
  unfold follow at hfollow ⊢
  split at hfollow
  · exact nomatch hfollow
  · exact nomatch hfollow
  · next hdirectory =>
    rw [at?_put_of_directory h hdirectory]
    exact hfollow

theorem foldlM_follow_put {names : List String} {start stop : List String}
    (h : t.at? place ≠ some .directory) (hfold : names.foldlM t.follow start = .ok stop) :
    names.foldlM (t.put place e).follow start = .ok stop := by
  induction names generalizing start with
  | nil => exact hfold
  | cons name names ih =>
    rw [List.foldlM_cons] at hfold ⊢
    cases hnext : t.follow start name with
    | error f =>
      rw [hnext] at hfold
      exact nomatch hfold
    | ok next =>
      rw [hnext] at hfold
      rw [follow_put h hnext]
      exact ih hfold

theorem locate_put (h : t.at? place ≠ some .directory) {stop : List String}
    (hlocate : t.locate p = .ok stop) : (t.put place e).locate p = .ok stop := by
  unfold locate at hlocate ⊢
  split at hlocate
  · exact nomatch hlocate
  split at hlocate
  · exact nomatch hlocate
  · next hnull hlong =>
    rw [if_neg hnull, if_neg hlong]
    exact foldlM_follow_put h hlocate

theorem find_eq_ok (hlocate : t.locate p = .ok place) (hentry : t.at? place = some e) :
    t.find p = .ok e := by
  simp only [find, hlocate, hentry, bind, Except.bind]

theorem find_of_writeFile (h : t.writeFile p bytes = .ok t') : t'.find p = .ok (.file bytes) := by
  unfold writeFile at h
  cases hlocate : t.locate p with
  | error f =>
    rw [hlocate] at h
    exact nomatch h
  | ok place =>
    rw [hlocate] at h
    dsimp only at h
    by_cases hentry : t.at? place = some .directory
    · rw [hentry] at h
      exact nomatch h
    split at h
    · exact nomatch h
    split at h
    · obtain rfl := Except.ok.inj h
      exact find_eq_ok (locate_put hentry hlocate) (at?_put_self hentry)
    · exact nomatch h

theorem writeFile_congr (h : t.writeFile p bytes = .ok t') (other : List UInt8) :
    ∃ t'', t.writeFile p other = .ok t'' := by
  unfold writeFile at h ⊢
  split at h
  · exact nomatch h
  split at h
  · exact nomatch h
  split at h
  · exact ⟨_, rfl⟩
  · exact nomatch h

theorem find_of_write (h : t.write p bytes = .ok t') : t'.find p = .ok (.file bytes) := by
  unfold write at h
  cases hmake : t.makeDirectories (p.names.length + 1) p.parent with
  | error f =>
    rw [hmake] at h
    exact nomatch h
  | ok made =>
    rw [hmake] at h
    exact find_of_writeFile h

theorem read_of_write (h : t.write p bytes = .ok t') :
    t'.contains p = .ok true ∧ t'.read p = .ok bytes := by
  rw [contains, read, find_of_write h]
  exact ⟨rfl, rfl⟩

/-- A file can be written at a path. -/
def Writable (t : FileTree) (p : Path) : Prop := ∃ bytes t', t.write p bytes = .ok t'

theorem Writable.exists_write (h : t.Writable p) (bytes : List UInt8) :
    ∃ t', t.write p bytes = .ok t' := by
  obtain ⟨other, t', h⟩ := h
  unfold write at h ⊢
  cases hmake : t.makeDirectories (p.names.length + 1) p.parent with
  | error f =>
    rw [hmake] at h
    exact nomatch h
  | ok made =>
    rw [hmake] at h
    exact writeFile_congr h bytes

end RenderTrace.FileTree
