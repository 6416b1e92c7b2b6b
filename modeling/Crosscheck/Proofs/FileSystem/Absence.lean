import Crosscheck.Proofs.FileSystem.Visits

namespace Crosscheck.FileSystem

variable {fs fs' : FileSystem} {follow follow' : Location → String → Except Errno Spot}
  {through : Bool} {loc : Location} {ss : List String} {p s : String} {d : Location}

def Lost : Except Errno Spot → Prop
  | .error e => e = .notFound
  | .ok (.node _) => False
  | .ok (.gap _ _) => True

section Within

variable (h : Within fs' fs)

include h

theorem get?_within (l : Location) : fs'.get? l = fs.get? l ∨ fs'.get? l = none := by
  cases hl : fs'.get? l with
  | none => exact .inr rfl
  | some n => exact .inl (h.get? l n hl).symm

/-- Where things have been taken away, a walk ends where it did or comes to nothing. -/
theorem walkWith_within
    (hf : ∀ loc target, follow' loc target = follow loc target ∨ Lost (follow' loc target)) :
    walkWith fs' follow' through loc ss = walkWith fs follow through loc ss ∨
      Lost (walkWith fs' follow' through loc ss) := by
  induction ss generalizing loc with
  | nil => exact .inl rfl
  | cons s rest ih =>
    rw [walkWith, walkWith]
    cases get?_within h loc with
    | inr hnone =>
      refine .inr ?_
      rw [enter, hnone]
      rfl
    | inl hsame =>
    rw [(Agree.of_eq hsame).enter h.terms]
    cases fs.enter loc with
    | error e => exact .inl rfl
    | ok _ =>
    dsimp only
    by_cases hdot : s = "."
    · rw [if_pos hdot, if_pos hdot]
      exact ih
    rw [if_neg hdot, if_neg hdot]
    by_cases hdotdot : s = ".."
    · rw [if_pos hdotdot, if_pos hdotdot]
      exact ih
    rw [if_neg hdotdot, if_neg hdotdot]
    by_cases hlen : s.utf8ByteSize > maxName
    · rw [if_pos hlen, if_pos hlen]
      exact .inl rfl
    rw [if_neg hlen, if_neg hlen]
    have hgap : ∀ d name, Lost (if rest.isEmpty then .ok (.gap d name) else .error .notFound) := by
      intro d name
      split <;> trivial
    cases get?_within h (loc ++ [s]) with
    | inr hnone =>
      rw [hnone]
      exact .inr (hgap loc s)
    | inl hnext =>
    rw [hnext]
    cases fs.get? (loc ++ [s]) with
    | none => exact .inl rfl
    | some n =>
      cases n with
      | dir | file | fifo => exact ih
      | link target =>
        dsimp only
        split
        · exact .inl rfl
        cases hf loc target with
        | inl hfollow =>
          rw [hfollow]
          cases follow loc target with
          | error e => exact .inl rfl
          | ok sp =>
            cases sp with
            | gap d name => exact .inl rfl
            | node found => exact ih
        | inr hlost =>
          refine .inr ?_
          cases hfollow : follow' loc target with
          | error e =>
            rw [hfollow] at hlost
            exact hlost
          | ok sp =>
            cases sp with
            | gap d name => exact hgap d name
            | node found =>
              rw [hfollow] at hlost
              exact hlost.elim

theorem followLink_within (budget : Nat) (loc : Location) (target : String) :
    followLink fs' budget loc target = followLink fs budget loc target ∨
      Lost (followLink fs' budget loc target) := by
  induction budget generalizing loc target with
  | zero => exact .inl rfl
  | succ budget ih =>
    rw [followLink, followLink]
    split
    · exact .inl rfl
    · exact walkWith_within h ih

end Within

theorem lstat_eq_notFound :
    fs.lstat p = .error .notFound ↔ pathFault? p = some .notFound ∨ pathFault? p = none ∧
      (Lost (walkWith fs (followLink fs linkBudget) false (fs.start p) (stepsThrough p)) ∨
        ∃ l, walkWith fs (followLink fs linkBudget) false (fs.start p) (stepsThrough p) =
          .ok (.node l) ∧ fs.get? l = none) := by
  rw [lstat, spot]
  cases pathFault? p with
  | some e => simp
  | none =>
    dsimp only
    cases walkWith fs (followLink fs linkBudget) false (fs.start p) (stepsThrough p) with
    | error e => simp [Lost]
    | ok sp =>
      cases sp with
      | gap d s => simp [Lost]
      | node l => cases hl : fs.get? l <;> simp [hl, Lost]

theorem lstat_within (h : Within fs' fs) (hp : fs.lstat p = .error .notFound) :
    fs'.lstat p = .error .notFound := by
  rw [lstat_eq_notFound] at hp ⊢
  refine hp.imp_right (.imp_right fun hnothing => ?_)
  rw [start_of_terms h.terms]
  cases walkWith_within h (@followLink_within fs fs' h linkBudget) with
  | inr hlost => exact .inl hlost
  | inl hsame =>
    rw [hsame]
    refine hnothing.imp_right ?_
    rintro ⟨l, hw, hl⟩
    exact ⟨l, hw, (get?_within h l).elim (fun hs => hs.trans hl) id⟩

theorem lstat_erase (h : fs.entry p = .ok ⟨d, .name s, false⟩) :
    (fs.erase (d ++ [s])).lstat p = .error .notFound := by
  have hw := erase_within fs (d ++ [s])
  rw [lstat_eq_notFound, start_of_terms hw.terms]
  refine .inr ⟨pathFault?_of_entry h, ?_⟩
  cases walkWith_within hw (followLink_within hw linkBudget) with
  | inr hlost => exact .inl hlost
  | inl hsame =>
    rw [hsame, walkWith_entry h]
    obtain ⟨_, _, _, he, hs, _⟩ := entry_name h
    cases hg : fs.get? (d ++ [s]) with
    | none =>
      rw [(Walk.gap he hs hg).walkWith]
      exact .inl trivial
    | some n =>
      refine .inr ⟨d ++ [s], ?_, by rw [get?_erase, if_pos rfl]⟩
      cases n with
      | link target => exact (Walk.stay he hs hg rfl).walkWith
      | dir | file | fifo =>
        have hlink : fs.linkAt (d ++ [s]) = none := linkAt_eq_none.mpr fun aim ht => by
          rw [hg] at ht
          cases ht
        exact (Walk.into he hs hg hlink (.done _)).walkWith

theorem lstat_of_entry_error {e : Errno} (h : fs.entry p = .error e) : fs.lstat p = .error e := by
  rw [entry] at h
  split at h
  · rename_i hp
    cases h
    rw [lstat, spot, hp]
  rename_i hp
  split at h
  · cases h
  rename_i s front hrev
  have hsteps : steps p = front.reverse ++ [s] := by
    rw [← List.reverse_reverse (steps p), hrev, List.reverse_cons]
  obtain ⟨bs, hthrough⟩ : ∃ bs, stepsThrough p = front.reverse ++ s :: bs := by
    rw [stepsThrough, hsteps]
    split
    · exact ⟨["."], by rw [List.append_assoc, List.singleton_append]⟩
    · exact ⟨[], rfl⟩
  have hwalk : walkWith fs (followLink fs linkBudget) false (fs.start p) (stepsThrough p) =
      .error e := by
    rw [hthrough, walkWith_onward]
    split at h
    · rename_i hw
      cases h
      rw [hw]
      rfl
    · rename_i hw
      cases h
      rw [hw]
      rfl
    rename_i dir hw
    rw [hw, onward, walkWith]
    split at h
    · cases h
      rfl
    dsimp only at h
    split at h
    · cases h
    rename_i hdot
    split at h
    · cases h
    rename_i hdotdot
    split at h
    · rename_i hlen
      cases h
      rw [if_neg hdot, if_neg hdotdot, if_pos hlen]
    · cases h
  rw [lstat, spot_of_pathFault? hp, hwalk]

end Crosscheck.FileSystem
