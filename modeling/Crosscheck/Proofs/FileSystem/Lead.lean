import Crosscheck.FileSystem.Walk
import Crosscheck.Proofs.FileSystem.Nodes
import Crosscheck.Proofs.Path

namespace Crosscheck.FileSystem

def Spot.loc : Spot → Location
  | .node loc => loc
  | .gap dir name => dir ++ [name]

def linkAt (fs : FileSystem) (loc : Location) : Option String :=
  match fs.get? loc with
  | some (.link target) => some target
  | _ => none

theorem linkAt_eq_some {fs : FileSystem} {loc : Location} {target : String} :
    fs.linkAt loc = some target ↔ fs.get? loc = some (.link target) := by
  unfold linkAt
  split <;> simp_all

theorem linkAt_of_get?_none {fs : FileSystem} {loc : Location} (h : fs.get? loc = none) :
    fs.linkAt loc = none := by
  simp [linkAt, h]

theorem linkAt_eq_none {fs : FileSystem} {loc : Location} :
    fs.linkAt loc = none ↔ ∀ target, fs.get? loc ≠ some (.link target) := by
  rw [← Option.not_isSome_iff_eq_none, Option.isSome_iff_exists, not_exists]
  simp only [linkAt_eq_some, ne_eq]

theorem linkAt_of_nodes {fs : FileSystem} (h : ∀ e ∈ fs.nodes, fs.linkAt e.1 = none)
    (loc : Location) : fs.linkAt loc = none :=
  linkAt_eq_none.mpr fun target hl =>
    linkAt_eq_none.mp (h _ (mem_nodes_of_get? hl)) target hl

def Plain (s : String) : Prop := s ≠ "." ∧ s ≠ ".." ∧ s.utf8ByteSize ≤ maxName

/-- The ways in which a walk comes to an end, step by step. -/
inductive Walk (fs : FileSystem) (follow : Location → String → Except Errno Spot) (through : Bool) :
    Location → List String → Spot → Prop
  | done (loc : Location) : Walk fs follow through loc [] (.node loc)
  | dot {loc : Location} {rest : List String} {sp : Spot} (he : fs.enter loc = .ok ())
      (hw : Walk fs follow through loc rest sp) : Walk fs follow through loc ("." :: rest) sp
  | dotdot {loc : Location} {rest : List String} {sp : Spot} (he : fs.enter loc = .ok ())
      (hw : Walk fs follow through loc.dropLast rest sp) :
      Walk fs follow through loc (".." :: rest) sp
  | gap {loc : Location} {s : String} (he : fs.enter loc = .ok ()) (hs : Plain s)
      (hg : fs.get? (loc ++ [s]) = none) : Walk fs follow through loc [s] (.gap loc s)
  | into {loc : Location} {s : String} {rest : List String} {sp : Spot} {n : Node}
      (he : fs.enter loc = .ok ()) (hs : Plain s) (hg : fs.get? (loc ++ [s]) = some n)
      (hn : fs.linkAt (loc ++ [s]) = none) (hw : Walk fs follow through (loc ++ [s]) rest sp) :
      Walk fs follow through loc (s :: rest) sp
  | stay {loc : Location} {s target : String} (he : fs.enter loc = .ok ()) (hs : Plain s)
      (hg : fs.get? (loc ++ [s]) = some (.link target)) (ht : through = false) :
      Walk fs follow through loc [s] (.node (loc ++ [s]))
  | along {loc found : Location} {s target : String} {rest : List String} {sp : Spot}
      (he : fs.enter loc = .ok ()) (hs : Plain s)
      (hg : fs.get? (loc ++ [s]) = some (.link target)) (ht : (rest.isEmpty && !through) = false)
      (hf : follow loc target = .ok (.node found)) (hw : Walk fs follow through found rest sp) :
      Walk fs follow through loc (s :: rest) sp
  | alongGap {loc dir : Location} {s target name : String} (he : fs.enter loc = .ok ())
      (hs : Plain s) (hg : fs.get? (loc ++ [s]) = some (.link target)) (ht : through = true)
      (hf : follow loc target = .ok (.gap dir name)) :
      Walk fs follow through loc [s] (.gap dir name)

theorem walk_of_walkWith {fs : FileSystem} {follow : Location → String → Except Errno Spot}
    {through : Bool} {loc : Location} {ss : List String} {sp : Spot}
    (h : walkWith fs follow through loc ss = .ok sp) : Walk fs follow through loc ss sp := by
  induction ss generalizing loc with
  | nil =>
    cases h
    exact .done loc
  | cons s rest ih =>
    rw [walkWith] at h
    split at h
    · cases h
    rename_i he
    split at h
    · rename_i hs
      subst s
      exact .dot he (ih h)
    split at h
    · rename_i hs
      subst s
      exact .dotdot he (ih h)
    split at h
    · cases h
    rename_i hdot hdotdot hlen
    have hs : Plain s := ⟨hdot, hdotdot, Nat.le_of_not_lt hlen⟩
    split at h
    · rename_i hg
      split at h
      · rename_i hr
        rw [List.isEmpty_iff.mp hr]
        cases h
        exact .gap he hs hg
      · cases h
    · rename_i target hg
      split at h
      · rename_i hr
        rw [Bool.and_eq_true, List.isEmpty_iff, Bool.not_eq_true'] at hr
        rw [hr.1]
        cases h
        exact .stay he hs hg hr.2
      · rename_i hr
        rw [Bool.not_eq_true] at hr
        split at h
        · cases h
        · rename_i found hf
          exact .along he hs hg hr hf (ih h)
        · rename_i dir name hf
          split at h
          · rename_i hre
            cases h
            rw [hre, Bool.true_and, Bool.not_eq_false'] at hr
            rw [List.isEmpty_iff.mp hre]
            exact .alongGap he hs hg hr hf
          · cases h
    · rename_i n hn hg
      refine .into he hs hg (linkAt_eq_none.mpr ?_) (ih h)
      intro target ht
      rw [hg, Option.some.injEq] at ht
      exact hn target ht

def onward (fs : FileSystem) (follow : Location → String → Except Errno Spot) (through : Bool)
    (ss : List String) : Except Errno Spot → Except Errno Spot
  | .ok (.node loc) => walkWith fs follow through loc ss
  | .ok (.gap _ _) => .error .notFound
  | .error e => .error e

/-- A walk can be broken wherever there is a step to follow. -/
theorem walkWith_onward {fs : FileSystem} {follow : Location → String → Except Errno Spot}
    {through : Bool} (loc : Location) (as : List String) (b : String) (bs : List String) :
    walkWith fs follow through loc (as ++ b :: bs) =
      onward fs follow through (b :: bs) (walkWith fs follow true loc as) := by
  induction as generalizing loc with
  | nil => rfl
  | cons a as ih =>
    have hne : (as ++ b :: bs).isEmpty = false := by simp
    rw [List.cons_append, walkWith, walkWith]
    cases fs.enter loc with
    | error e => rfl
    | ok _ =>
    dsimp only
    by_cases hdot : a = "."
    · rw [if_pos hdot, if_pos hdot, ih]
    rw [if_neg hdot, if_neg hdot]
    by_cases hdotdot : a = ".."
    · rw [if_pos hdotdot, if_pos hdotdot, ih]
    rw [if_neg hdotdot, if_neg hdotdot]
    by_cases hlen : a.utf8ByteSize > maxName
    · rw [if_pos hlen, if_pos hlen, onward]
    rw [if_neg hlen, if_neg hlen, hne]
    cases fs.get? (loc ++ [a]) with
    | none => cases as <;> rfl
    | some n =>
      cases n with
      | link target =>
        simp only [Bool.false_and, Bool.not_true, Bool.and_false, Bool.false_eq_true, if_false]
        cases follow loc target with
        | error e => rfl
        | ok found =>
          cases found with
          | node found => exact ih found
          | gap dir name => cases as <;> rfl
      | dir | file | fifo => exact ih _

theorem walkWith_append {fs : FileSystem} {follow : Location → String → Except Errno Spot}
    {through : Bool} {loc : Location} {as bs : List String} {b : String} {sp : Spot}
    (h : walkWith fs follow through loc (as ++ b :: bs) = .ok sp) :
    ∃ d, walkWith fs follow true loc as = .ok (.node d) ∧
      walkWith fs follow through d (b :: bs) = .ok sp := by
  rw [walkWith_onward] at h
  cases hw : walkWith fs follow true loc as with
  | error e =>
    rw [hw] at h
    cases h
  | ok found =>
    rw [hw] at h
    cases found with
    | node d => exact ⟨d, rfl, h⟩
    | gap d s => cases h

/-- Where steps lead if all that is missing on the way were there. The links alone decide. -/
def leadWith (links : Location → Option String) (follow : Location → String → Option Location)
    (through : Bool) : Location → List String → Option Location
  | loc, [] => some loc
  | loc, s :: rest =>
    if s = "." then leadWith links follow through loc rest
    else if s = ".." then leadWith links follow through loc.dropLast rest
    else
      match links (loc ++ [s]) with
      | none => leadWith links follow through (loc ++ [s]) rest
      | some target =>
        if rest.isEmpty && !through then some (loc ++ [s])
        else (follow loc target).bind fun found => leadWith links follow through found rest

def leadLink (links : Location → Option String) : Nat → Location → String → Option Location
  | 0, _, _ => none
  | budget + 1, loc, target =>
    leadWith links (leadLink links budget) true (if Path.isAbs target then [] else loc) (steps target)

def leadFrom (links : Location → Option String) (through : Bool) (loc : Location)
    (ss : List String) : Option Location :=
  leadWith links (leadLink links linkBudget) through loc ss

def lead (fs : FileSystem) (through : Bool) (p : String) : Option Location :=
  leadFrom fs.linkAt through (fs.start p) (steps p)

/-- The end of a walk, as far as it is free, is no link either. -/
def Spot.Free (links : Location → Option String) : Spot → Prop
  | .node _ => True
  | .gap dir name => links (dir ++ [name]) = none

section Links

variable {fs : FileSystem} {links : Location → Option String}
  (hl : ∀ l n, fs.get? l = some n → links l = fs.linkAt l)

include hl

/-- A walk only looks at what stands on its way. -/
theorem Walk.leadWith {follow : Location → String → Except Errno Spot}
    {follow' : Location → String → Option Location} {through : Bool} {loc : Location}
    {ss : List String} {sp : Spot} (h : Walk fs follow through loc ss sp) (hsp : sp.Free links)
    (hf : ∀ loc target sp, follow loc target = .ok sp → sp.Free links →
      follow' loc target = some sp.loc) :
    leadWith links follow' through loc ss = some sp.loc := by
  induction h with
  | done loc => rfl
  | dot he hw ih => simpa only [FileSystem.leadWith, if_true] using ih hsp
  | dotdot he hw ih =>
    rw [FileSystem.leadWith, if_neg (by decide), if_pos rfl]
    exact ih hsp
  | gap he hs hg =>
    have hnone : links (_ ++ [_]) = none := hsp
    rw [FileSystem.leadWith, if_neg hs.1, if_neg hs.2.1, hnone]
    rfl
  | into he hs hg hn hw ih =>
    rw [FileSystem.leadWith, if_neg hs.1, if_neg hs.2.1, hl _ _ hg, hn]
    exact ih hsp
  | stay he hs hg ht =>
    rw [FileSystem.leadWith, if_neg hs.1, if_neg hs.2.1, hl _ _ hg, linkAt_eq_some.mpr hg]
    simp [ht, Spot.loc]
  | along he hs hg ht hfl hw ih =>
    rw [FileSystem.leadWith, if_neg hs.1, if_neg hs.2.1, hl _ _ hg, linkAt_eq_some.mpr hg]
    simp only [ht, Bool.false_eq_true, if_false, hf _ _ _ hfl trivial, Option.bind_some]
    exact ih hsp
  | alongGap he hs hg ht hfl =>
    rw [FileSystem.leadWith, if_neg hs.1, if_neg hs.2.1, hl _ _ hg, linkAt_eq_some.mpr hg]
    simp [ht, hf _ _ _ hfl hsp, FileSystem.leadWith]

end Links

section Append

variable (links : Location → Option String) (follow : Location → String → Option Location)

theorem leadWith_append (through : Bool) (loc : Location) (as : List String) {bs : List String}
    (hb : bs ≠ []) :
    leadWith links follow through loc (as ++ bs) =
      (leadWith links follow true loc as).bind fun l => leadWith links follow through l bs := by
  induction as generalizing loc with
  | nil => rfl
  | cons a rest ih =>
    have he : (rest ++ bs).isEmpty = false := by simp [hb]
    simp only [List.cons_append, leadWith, ih]
    split
    · rfl
    split
    · rfl
    split
    · rfl
    · simp only [he, Bool.false_and, Bool.not_true, Bool.and_false, Bool.false_eq_true, if_false,
        Option.bind_assoc]

theorem leadWith_dot (through : Bool) (loc : Location) (ss : List String) :
    leadWith links follow through loc (ss ++ ["."]) = leadWith links follow true loc ss := by
  rw [leadWith_append links follow through loc ss (by simp)]
  simp [leadWith]

theorem leadWith_stepsThrough (loc : Location) (p : String) :
    leadWith links follow true loc (stepsThrough p) = leadWith links follow true loc (steps p) := by
  rw [stepsThrough]
  split
  · exact leadWith_dot links follow true loc (steps p)
  · rfl

theorem leadWith_name (loc : Location) {s : String} (hdot : s ≠ ".") (hdotdot : s ≠ "..") :
    leadWith links follow false loc [s] = some (loc ++ [s]) := by
  rw [leadWith, if_neg hdot, if_neg hdotdot]
  split <;> rfl

/-- A link at the end is all that makes a difference. -/
theorem leadWith_through {loc : Location} {ss : List String} {l : Location}
    (h : leadWith links follow false loc ss = some l) (hl : links l = none) :
    leadWith links follow true loc ss = some l := by
  induction ss generalizing loc with
  | nil => exact h
  | cons s rest ih =>
    rw [leadWith] at h ⊢
    split
    · rename_i hs
      rw [if_pos hs] at h
      exact ih h
    rename_i hdot
    rw [if_neg hdot] at h
    split
    · rename_i hs
      rw [if_pos hs] at h
      exact ih h
    rename_i hdotdot
    rw [if_neg hdotdot] at h
    split at h
    · exact ih h
    · rename_i target ht
      split at h
      · cases h
        rw [hl] at ht
        cases ht
      · obtain ⟨found, hf, hr⟩ := Option.bind_eq_some_iff.mp h
        simp only [Bool.not_true, Bool.and_false, Bool.false_eq_true, if_false, hf,
          Option.bind_some]
        exact ih hr

end Append

section Links

variable {fs : FileSystem} {links : Location → Option String}
  (hl : ∀ l n, fs.get? l = some n → links l = fs.linkAt l)

include hl

theorem leadLink_of_followLink {budget : Nat} {loc : Location} {target : String} {sp : Spot}
    (h : followLink fs budget loc target = .ok sp) (hsp : sp.Free links) :
    leadLink links budget loc target = some sp.loc := by
  induction budget generalizing loc target sp with
  | zero => cases h
  | succ budget ih =>
    rw [followLink] at h
    split at h
    · cases h
    have hw := (walk_of_walkWith h).leadWith hl hsp fun _ _ _ hf hsp => ih hf hsp
    rwa [leadWith_stepsThrough] at hw

theorem leadFrom_of_walk {through : Bool} {loc : Location} {ss : List String} {sp : Spot}
    (h : Walk fs (followLink fs linkBudget) through loc ss sp) (hsp : sp.Free links) :
    leadFrom links through loc ss = some sp.loc :=
  h.leadWith hl hsp fun _ _ _ hf hsp => leadLink_of_followLink hl hf hsp

end Links

theorem Walk.gap_free {fs : FileSystem} {follow : Location → String → Except Errno Spot}
    {through : Bool} {loc d : Location} {ss : List String} {s : String}
    (h : Walk fs follow through loc ss (.gap d s))
    (hf : ∀ loc target, follow loc target = .ok (.gap d s) →
      fs.enter d = .ok () ∧ fs.get? (d ++ [s]) = none ∧ Plain s) :
    fs.enter d = .ok () ∧ fs.get? (d ++ [s]) = none ∧ Plain s := by
  generalize hsp : Spot.gap d s = sp at h
  induction h with
  | done | stay => cases hsp
  | dot _ _ ih | dotdot _ _ ih | into _ _ _ _ _ ih | along _ _ _ _ _ _ ih => exact ih hsp
  | gap he hs hg =>
    cases hsp
    exact ⟨he, hg, hs⟩
  | alongGap _ _ _ _ hfl =>
    cases hsp
    exact hf _ _ hfl

theorem followLink_gap {fs : FileSystem} {budget : Nat} {loc d : Location} {target s : String}
    (h : followLink fs budget loc target = .ok (.gap d s)) :
    fs.enter d = .ok () ∧ fs.get? (d ++ [s]) = none ∧ Plain s := by
  induction budget generalizing loc target with
  | zero => cases h
  | succ budget ih =>
    rw [followLink] at h
    split at h
    · cases h
    exact (walk_of_walkWith h).gap_free fun _ _ hf => ih hf

theorem pathFault?_eq_none {p : String} :
    pathFault? p = none ↔ '\x00' ∉ p.toList ∧ p ≠ "" ∧ p.utf8ByteSize ≤ maxPath := by
  unfold pathFault?
  split
  · simp_all
  split
  · simp_all
  split
  · rename_i h
    simp [Nat.not_le.mpr h]
  · rename_i hnul hne hlen
    rw [List.contains_iff_mem] at hnul
    exact iff_of_true rfl ⟨hnul, hne, Nat.le_of_not_lt hlen⟩

theorem pathFault?_ne_notFound {p : String} (h : p ≠ "") : pathFault? p ≠ some .notFound := by
  rw [pathFault?, if_neg h]
  split
  · simp
  split <;> simp

theorem ne_empty_of_pathFault? {p : String} (h : pathFault? p = none) : p ≠ "" :=
  (pathFault?_eq_none.mp h).2.1

/-- A path that the system takes it also takes up to some point. -/
theorem pathFault?_of_prefix {p q : String} (hq : pathFault? q = none) (hp : p ≠ "")
    (h : p.toList <+: q.toList) : pathFault? p = none := by
  obtain ⟨rest, hrest⟩ := h
  have hsplit : q = p ++ String.ofList rest := by
    apply String.ext
    rw [String.toList_append, String.toList_ofList, hrest]
  obtain ⟨hnul, _, hlen⟩ := pathFault?_eq_none.mp hq
  rw [hsplit, String.utf8ByteSize_append] at hlen
  rw [hsplit, String.toList_append] at hnul
  exact pathFault?_eq_none.mpr
    ⟨fun h => hnul (List.mem_append_left _ h), hp, Nat.le_trans (Nat.le_add_right ..) hlen⟩

theorem pathFault?_toLocation {loc loc' : Location} (h : loc <+: loc')
    (hloc' : pathFault? (Path.toLocation loc') = none) :
    pathFault? (Path.toLocation loc) = none :=
  pathFault?_of_prefix hloc' (Path.toLocation_ne_empty loc) (Path.toLocation_prefix h)

theorem spot_of_pathFault? {p : String} (h : pathFault? p = none) (fs : FileSystem) (through : Bool) :
    fs.spot through p =
      match walkWith fs (followLink fs linkBudget) through (fs.start p) (stepsThrough p) with
      | .ok (.node loc) => if (fs.get? loc).isSome then .ok (.node loc) else .error .notFound
      | found => found := by
  unfold spot
  split
  next hfault => cases h.symm.trans hfault
  next => rfl

theorem pathFault?_of_spot {fs : FileSystem} {through : Bool} {p : String} {sp : Spot}
    (h : fs.spot through p = .ok sp) : pathFault? p = none := by
  rw [spot] at h
  split at h
  · cases h
  · assumption

theorem walkWith_of_spot {fs : FileSystem} {through : Bool} {p : String} {sp : Spot}
    (h : fs.spot through p = .ok sp) :
    walkWith fs (followLink fs linkBudget) through (fs.start p) (stepsThrough p) = .ok sp := by
  rw [spot_of_pathFault? (pathFault?_of_spot h)] at h
  split at h
  · rename_i loc hw
    split at h
    · cases h
      exact hw
    · cases h
  · exact h

theorem walk_of_spot {fs : FileSystem} {through : Bool} {p : String} {sp : Spot}
    (h : fs.spot through p = .ok sp) :
    Walk fs (followLink fs linkBudget) through (fs.start p) (stepsThrough p) sp :=
  walk_of_walkWith (walkWith_of_spot h)

/-- A free name that a path leads to is free indeed, in a directory that may be searched. -/
theorem spot_gap {fs : FileSystem} {through : Bool} {p s : String} {d : Location}
    (h : fs.spot through p = .ok (.gap d s)) :
    fs.enter d = .ok () ∧ fs.get? (d ++ [s]) = none ∧ Plain s :=
  (walk_of_spot h).gap_free fun _ _ hf => followLink_gap hf

theorem spot_lead {fs : FileSystem} {p : String} {sp : Spot} (h : fs.spot true p = .ok sp) :
    fs.lead true p = some sp.loc := by
  have hsp : sp.Free fs.linkAt := by
    cases sp with
    | node loc => trivial
    | gap d s => exact linkAt_of_get?_none (spot_gap h).2.1
  have hl := leadFrom_of_walk (fun _ _ _ => rfl) (walk_of_spot h) hsp
  rwa [leadFrom, leadWith_stepsThrough] at hl

theorem spot_node {fs : FileSystem} {through : Bool} {p : String} {loc : Location}
    (h : fs.spot through p = .ok (.node loc)) : ∃ n, fs.get? loc = some n := by
  rw [spot_of_pathFault? (pathFault?_of_spot h)] at h
  split at h
  · split at h
    · rename_i hs
      cases h
      exact Option.isSome_iff_exists.mp hs
    · cases h
  · rename_i hn
    exact absurd h (hn loc)

theorem enter_eq_ok {fs : FileSystem} {loc : Location} :
    fs.enter loc = .ok () ↔ ∃ mode, fs.get? loc = some (.dir mode) ∧ fs.canSearch (.dir mode) = true := by
  unfold enter
  split
  · simp_all
  · rename_i n hn
    rw [hn]
    cases n with
    | dir mode => by_cases hs : fs.canSearch (.dir mode) = true <;> simp [Node.isDir, hs]
    | file | link | fifo => simp [Node.isDir]

def Entry.loc (e : Entry) : Location :=
  match e.last with
  | .root => []
  | .dot => e.dir
  | .dotdot => e.dir.dropLast
  | .name s => e.dir ++ [s]

theorem pathFault?_of_entry {fs : FileSystem} {p : String} {e : Entry} (h : fs.entry p = .ok e) :
    pathFault? p = none := by
  rw [entry] at h
  split at h
  · cases h
  · assumption

theorem entry_cases {fs : FileSystem} {p : String} {e : Entry} (h : fs.entry p = .ok e) :
    (steps p = [] ∧ Path.isAbs p = true ∧ e = ⟨[], .root, false⟩) ∨
    ∃ front s, steps p = front ++ [s] ∧
      Walk fs (followLink fs linkBudget) true (fs.start p) front (.node e.dir) ∧
      fs.enter e.dir = .ok () ∧ e.slash = (p.toList.getLast? = some '/') ∧
      ((s = "." ∧ e.last = .dot) ∨ (s = ".." ∧ e.last = .dotdot) ∨ (Plain s ∧ e.last = .name s)) := by
  have hfault := pathFault?_of_entry h
  rw [entry, hfault] at h
  dsimp only at h
  split at h
  · rename_i hs
    have hs' : steps p = [] := List.reverse_eq_nil_iff.mp hs
    cases h
    exact Or.inl ⟨hs', Path.isAbs_of_steps_eq_nil (ne_empty_of_pathFault? hfault) hs', rfl⟩
  · rename_i s front hs
    have hs' : steps p = front.reverse ++ [s] := by
      rw [← List.reverse_reverse (steps p), hs, List.reverse_cons]
    split at h
    · cases h
    · cases h
    rename_i dir hw
    split at h
    · cases h
    rename_i he
    refine Or.inr ⟨front.reverse, s, hs', ?_⟩
    split at h
    · rename_i hdot
      cases h
      exact ⟨walk_of_walkWith hw, he, by simp, Or.inl ⟨hdot, rfl⟩⟩
    split at h
    · rename_i hdotdot
      cases h
      exact ⟨walk_of_walkWith hw, he, by simp, Or.inr (Or.inl ⟨hdotdot, rfl⟩)⟩
    split at h
    · cases h
    rename_i hdot hdotdot hlen
    cases h
    exact ⟨walk_of_walkWith hw, he, by simp,
      Or.inr (Or.inr ⟨⟨hdot, hdotdot, Nat.le_of_not_lt hlen⟩, rfl⟩)⟩

theorem lead_join {fs : FileSystem} (d : String) {n : String} (hn : Path.IsName n) :
    fs.lead false (Path.join [d, n]) = (fs.lead true (Path.clean d)).map (· ++ [n]) := by
  have hsteps : ∀ loc, leadFrom fs.linkAt true loc (steps (Path.clean d)) =
      leadFrom fs.linkAt true loc (Path.names d) := by
    intro loc
    by_cases hd : Path.isAbs d = true ∨ Path.names d ≠ []
    · rw [Path.clean_eq, Path.steps_ofComponents _ hd]
      exact fun s hs => ⟨(Path.mem_names hs).1, (Path.mem_names hs).2.2⟩
    · rw [not_or, Bool.not_eq_true, ne_eq, not_not] at hd
      rw [Path.clean_eq, hd.1, hd.2]
      rfl
  have habs : Path.isAbs (Path.clean d) = Path.isAbs d :=
    Path.isAbs_ofComponents fun s hs => ⟨(Path.mem_names hs).1, (Path.mem_names hs).2.2⟩
  rw [lead, lead, start, start, Path.isAbs_join_name d hn, habs, hsteps,
    Path.steps_join_name d hn, leadFrom, leadFrom, leadWith_append _ _ _ _ _ (by simp)]
  simp only [leadWith_name _ _ _ hn.ne_dot hn.ne_dotdot]
  rw [Option.map_eq_bind]
  rfl

theorem lead_join_name {fs : FileSystem} {d n : String} {l : Location} (hn : Path.IsName n)
    (h : fs.lead false (Path.join [d, n]) = some l) : ∃ x, l = x ++ [n] := by
  rw [lead_join d hn] at h
  obtain ⟨x, _, hx⟩ := Option.map_eq_some_iff.mp h
  exact ⟨x, hx.symm⟩

def Reaches (fs : FileSystem) (p : String) (d : Location) : Prop :=
  walkWith fs (followLink fs linkBudget) true (fs.start p) (steps p) = .ok (.node d) ∧
    fs.enter d = .ok ()

theorem Reaches.lead {fs : FileSystem} {p : String} {d : Location} (h : fs.Reaches p d) :
    fs.lead true p = some d :=
  leadFrom_of_walk (fun _ _ _ => rfl) (walk_of_walkWith h.1) trivial

theorem stepsThrough_toLocation {loc : Location} (hloc : ∀ s ∈ loc, Path.IsName s) :
    stepsThrough (Path.toLocation loc) = loc := by
  rw [stepsThrough, Path.steps_toLocation hloc]
  refine if_neg fun hslash => ?_
  rcases List.eq_nil_or_concat loc with rfl | ⟨front, n, rfl⟩
  · exact hslash.2 rfl
  · rw [List.concat_eq_append] at hloc hslash
    exact Path.getLast?_toLocation (hloc n (by simp)) front hslash.1

/-- All directories on the way to something that is there can be searched, and there is something
in each of them. -/
theorem reaches_of_spot {fs : FileSystem} {through : Bool} {loc as l : Location} {n : String}
    (hloc : ∀ s ∈ loc ++ [n], Path.IsName s) (has : as <+: loc)
    (h : fs.spot through (Path.toLocation (loc ++ [n])) = .ok (.node l)) :
    ∃ d, fs.Reaches (Path.toLocation as) d ∧ fs.isEmptyDir d = false := by
  obtain ⟨rest, rfl⟩ := has
  have has : ∀ s ∈ as, Path.IsName s := fun s hs => hloc s (by simp [hs])
  obtain ⟨b, bs, hsplit⟩ : ∃ b bs, rest ++ [n] = b :: bs := by
    cases rest with
    | nil => exact ⟨n, [], rfl⟩
    | cons b bs => exact ⟨b, bs ++ [n], rfl⟩
  have hb : Path.IsName b := hloc b (by rw [List.append_assoc, hsplit]; simp)
  have hw := walkWith_of_spot h
  rw [stepsThrough_toLocation hloc, List.append_assoc as, hsplit] at hw
  obtain ⟨d, hd, hrest⟩ := walkWith_append hw
  have hstart : fs.start (Path.toLocation (as ++ b :: bs)) = fs.start (Path.toLocation as) := by
    simp only [start, Path.isAbs_toLocation, if_true]
  rw [hstart] at hd
  obtain ⟨he, hchild⟩ : fs.enter d = .ok () ∧ (fs.get? (d ++ [b])).isSome = true := by
    cases walk_of_walkWith hrest with
    | dot => exact absurd rfl hb.ne_dot
    | dotdot => exact absurd rfl hb.ne_dotdot
    | into he _ hg | stay he _ hg | along he _ hg => exact ⟨he, by rw [hg]; rfl⟩
  refine ⟨d, ⟨by rw [Path.steps_toLocation has]; exact hd, he⟩, ?_⟩
  rw [← Bool.not_eq_true, isEmptyDir_iff]
  intro hempty
  rw [hempty b] at hchild
  cases hchild

theorem Reaches.entry {fs : FileSystem} {loc d : Location} {n : String}
    (h : fs.Reaches (Path.toLocation loc) d) (hloc : ∀ s ∈ loc, Path.IsName s) (hn : Path.IsName n)
    (hfault : pathFault? (Path.toLocation (loc ++ [n])) = none) :
    fs.entry (Path.toLocation (loc ++ [n])) =
      if n.utf8ByteSize > maxName then .error .nameTooLong else .ok ⟨d, .name n, false⟩ := by
  have hnames : ∀ s ∈ loc ++ [n], Path.IsName s :=
    List.forall_mem_append.mpr ⟨hloc, List.forall_mem_singleton.mpr hn⟩
  obtain ⟨hw, he⟩ := h
  rw [Path.steps_toLocation hloc, start, Path.isAbs_toLocation, if_pos rfl] at hw
  rw [FileSystem.entry, hfault, Path.steps_toLocation hnames,
    List.reverse_append, List.reverse_singleton, List.singleton_append, start,
    Path.isAbs_toLocation, if_pos rfl]
  dsimp only
  rw [List.reverse_reverse, hw]
  dsimp only
  rw [he]
  dsimp only
  rw [if_neg hn.ne_dot, if_neg hn.ne_dotdot, decide_eq_false (Path.getLast?_toLocation hn loc)]

/-- A file system that holds nothing that the other does not hold. -/
structure Within (fs fs₀ : FileSystem) : Prop where
  terms : fs.terms = fs₀.terms
  get? : ∀ l n, fs.get? l = some n → fs₀.get? l = some n

theorem Within.refl (fs : FileSystem) : Within fs fs := ⟨rfl, fun _ _ h => h⟩

theorem Within.trans {fs fs₁ fs₂ : FileSystem} (h : Within fs fs₁) (h' : Within fs₁ fs₂) :
    Within fs fs₂ := ⟨h.terms.trans h'.terms, fun l n hg => h'.get? l n (h.get? l n hg)⟩

theorem Within.linkAt {fs fs₀ : FileSystem} (h : Within fs fs₀) (l : Location) (n : Node)
    (hg : fs.get? l = some n) : fs₀.linkAt l = fs.linkAt l := by
  rw [FileSystem.linkAt, FileSystem.linkAt, hg, h.get? l n hg]

theorem Within.start {fs fs₀ : FileSystem} (h : Within fs fs₀) (p : String) :
    fs.start p = fs₀.start p := by
  rw [FileSystem.start, FileSystem.start, cwd_of_terms h.terms]

theorem Within.spot_lead {fs fs₀ : FileSystem} (hw : Within fs fs₀) {p : String} {loc : Location}
    (h : fs.spot true p = .ok (.node loc)) : fs₀.lead true p = some loc := by
  have hl := leadFrom_of_walk hw.linkAt (walk_of_spot h) trivial
  rwa [leadFrom, leadWith_stepsThrough, hw.start] at hl

theorem Within.entry_lead {fs fs₀ : FileSystem} (hw : Within fs fs₀) {p : String} {e : Entry}
    (h : fs.entry p = .ok e) : fs₀.lead false p = some e.loc := by
  rcases entry_cases h with ⟨hs, ha, rfl⟩ | ⟨front, s, hs, hwalk, _, _, hlast⟩
  · rw [lead, hs, FileSystem.start, if_pos ha]
    rfl
  · have hl := leadFrom_of_walk hw.linkAt hwalk trivial
    rw [leadFrom, hw.start] at hl
    rw [lead, leadFrom, hs, leadWith_append _ _ _ _ _ (by simp), hl, Option.bind_some]
    rcases hlast with ⟨rfl, hl⟩ | ⟨rfl, hl⟩ | ⟨hp, hl⟩
    · simp [leadWith, Entry.loc, hl, Spot.loc]
    · simp [leadWith, Entry.loc, hl, Spot.loc]
    · rw [leadWith_name _ _ _ hp.1 hp.2.1, Entry.loc, hl]
      rfl

theorem entry_lead {fs : FileSystem} {p : String} {e : Entry} (h : fs.entry p = .ok e) :
    fs.lead false p = some e.loc := (Within.refl fs).entry_lead h

end Crosscheck.FileSystem
