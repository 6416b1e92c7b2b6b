import Crosscheck.Proofs.FileSystem.Frame

namespace Crosscheck

def Node.outline (n : Node) : Node := n.withBytes ByteArray.empty

@[simp] theorem Node.outline_withBytes (n : Node) (bytes : ByteArray) :
    (n.withBytes bytes).outline = n.outline := Node.withBytes_withBytes n bytes _

@[simp] theorem Node.outline_updated (n : Node) (id : Nat) (f : ByteArray → ByteArray) :
    (n.updated id f).outline = n.outline := by
  cases n with
  | file i mode old => by_cases hi : i = id <;> simp [Node.updated, Node.outline, withBytes, hi]
  | dir | link | fifo => rfl

theorem Node.outline_eq_link {n : Node} {target : String} (h : n.outline = .link target) :
    n = .link target := by
  cases n with
  | link aim => exact h
  | dir | file | fifo => cases h

theorem Node.isDir_of_outline {n m : Node} (h : m.outline = n.outline) : m.isDir = n.isDir := by
  have hout : ∀ k : Node, k.outline.isDir = k.isDir := fun k => by cases k <;> rfl
  rw [← hout m, h, hout n]

theorem Node.ownerBits_of_outline {n m : Node} (h : m.outline = n.outline) :
    m.ownerBits = n.ownerBits := by
  have hout : ∀ k : Node, k.outline.ownerBits = k.ownerBits := fun k => by cases k <;> rfl
  rw [← hout m, h, hout n]

namespace FileSystem

/-- The same stands at a place, bytes apart. -/
def Agree (fs fs' : FileSystem) (x : Location) : Prop :=
  (fs'.get? x).map Node.outline = (fs.get? x).map Node.outline

section Visits

variable (fs : FileSystem)

/-- The places that a walk looks at, its end among them. `inside` are those that are looked at for
a link. -/
def visitsWith (follow : Location → String → Except Errno Spot)
    (inside : Location → String → List Location) (through : Bool) :
    Location → List String → List Location
  | loc, [] => [loc]
  | loc, s :: rest =>
    loc ::
      match fs.enter loc with
      | .error _ => []
      | .ok () =>
        if s = "." then visitsWith follow inside through loc rest
        else if s = ".." then visitsWith follow inside through loc.dropLast rest
        else if s.utf8ByteSize > maxName then []
        else
          (loc ++ [s]) ::
            match fs.get? (loc ++ [s]) with
            | none => []
            | some (.link target) =>
              if rest.isEmpty && !through then []
              else
                inside loc target ++
                  match follow loc target with
                  | .ok (.node found) => visitsWith follow inside through found rest
                  | _ => []
            | some _ => visitsWith follow inside through (loc ++ [s]) rest

def visitsLink : Nat → Location → String → List Location
  | 0, _, _ => []
  | budget + 1, loc, target =>
    visitsWith fs (followLink fs budget) (visitsLink budget) true
      (if Path.isAbs target then [] else loc) (stepsThrough target)

def visitsFrom (through : Bool) (loc : Location) (ss : List String) : List Location :=
  visitsWith fs (followLink fs linkBudget) (visitsLink fs linkBudget) through loc ss

def visits (through : Bool) (p : String) : List Location :=
  fs.visitsFrom through (fs.start p) (stepsThrough p)

/-- The places that are looked at to find the directory that holds the last part of a path. -/
def visitsAbove (p : String) : List Location :=
  fs.visitsFrom true (fs.start p) (steps p).dropLast

end Visits

variable {fs fs' : FileSystem} {follow follow' : Location → String → Except Errno Spot}
  {inside : Location → String → List Location} {through : Bool} {loc : Location} {ss : List String}

theorem Agree.of_eq {x : Location} (h : fs'.get? x = fs.get? x) : Agree fs fs' x := by
  rw [Agree, h]

theorem Agree.none {x : Location} (h : Agree fs fs' x) (hx : fs.get? x = none) :
    fs'.get? x = none := by
  rw [Agree, hx] at h
  exact Option.map_eq_none_iff.mp h

theorem Agree.some {x : Location} {n : Node} (h : Agree fs fs' x) (hx : fs.get? x = some n) :
    ∃ m, fs'.get? x = some m ∧ m.outline = n.outline := by
  rw [Agree, hx] at h
  exact Option.map_eq_some_iff.mp h

theorem Agree.link {x : Location} {target : String} (h : Agree fs fs' x)
    (hx : fs.linkAt x = Option.some target) : fs'.linkAt x = Option.some target := by
  obtain ⟨m, hm, hout⟩ := h.some (linkAt_eq_some.mp hx)
  rw [linkAt_eq_some, hm, Node.outline_eq_link hout]

theorem Agree.linkAt {x : Location} (h : Agree fs fs' x) : fs'.linkAt x = fs.linkAt x := by
  apply Option.ext
  intro target
  exact ⟨Agree.link (Eq.symm h), Agree.link h⟩

theorem Agree.isSome {x : Location} (h : Agree fs fs' x) :
    (fs'.get? x).isSome = (fs.get? x).isSome := by
  rw [← Option.isSome_map (f := Node.outline), h, Option.isSome_map]

section Terms

variable (ht : fs'.terms = fs.terms)

include ht

theorem canSearch_of_outline {n m : Node} (h : m.outline = n.outline) :
    fs'.canSearch m = fs.canSearch n := by
  rw [canSearch_of_terms ht, canSearch, canSearch, Node.ownerBits_of_outline h]

theorem Agree.enter (h : Agree fs fs' loc) : fs'.enter loc = fs.enter loc := by
  rw [FileSystem.enter, FileSystem.enter]
  cases hg : fs.get? loc with
  | none => rw [h.none hg]
  | some n =>
    obtain ⟨m, hm, hout⟩ := h.some hg
    rw [hm]
    dsimp only
    rw [Node.isDir_of_outline hout, canSearch_of_outline ht hout]

theorem start_of_terms (p : String) : fs'.start p = fs.start p := by
  rw [start, start, cwd_of_terms ht]

/-- A walk depends on nothing but the places it looks at, and on no bytes at all. -/
theorem walkWith_congr (h : ∀ x ∈ visitsWith fs follow inside through loc ss, Agree fs fs' x)
    (hf : ∀ loc target, (∀ x ∈ inside loc target, Agree fs fs' x) →
      follow' loc target = follow loc target) :
    walkWith fs' follow' through loc ss = walkWith fs follow through loc ss := by
  induction ss generalizing loc with
  | nil => rfl
  | cons s rest ih =>
    rw [visitsWith] at h
    rw [walkWith, walkWith, (h loc List.mem_cons_self).enter ht]
    cases he : fs.enter loc with
    | error e => rfl
    | ok _ =>
    rw [he] at h
    dsimp only at h ⊢
    by_cases hdot : s = "."
    · rw [if_pos hdot, if_pos hdot]
      rw [if_pos hdot] at h
      exact ih fun x hx => h x (List.mem_cons_of_mem loc hx)
    rw [if_neg hdot, if_neg hdot]
    rw [if_neg hdot] at h
    by_cases hdotdot : s = ".."
    · rw [if_pos hdotdot, if_pos hdotdot]
      rw [if_pos hdotdot] at h
      exact ih fun x hx => h x (List.mem_cons_of_mem loc hx)
    rw [if_neg hdotdot, if_neg hdotdot]
    rw [if_neg hdotdot] at h
    by_cases hlen : s.utf8ByteSize > maxName
    · rw [if_pos hlen, if_pos hlen]
    rw [if_neg hlen, if_neg hlen]
    rw [if_neg hlen] at h
    have hnext : Agree fs fs' (loc ++ [s]) := h _ (by simp)
    cases hg : fs.get? (loc ++ [s]) with
    | none => rw [hnext.none hg]
    | some n =>
      obtain ⟨m, hm, hout⟩ := hnext.some hg
      rw [hm]
      rw [hg] at h
      cases n with
      | link target =>
        rw [Node.outline_eq_link hout]
        dsimp only at h ⊢
        split
        · rfl
        rename_i hend
        rw [if_neg hend] at h
        rw [hf loc target fun x hx => h x (by simp [hx])]
        cases hfl : follow loc target with
        | error e => rfl
        | ok sp =>
          cases sp with
          | gap d n => rfl
          | node found =>
            rw [hfl] at h
            exact ih fun x hx => h x (by simp [hx])
      | dir | file | fifo =>
        have hrest := @ih (loc ++ [s]) fun x hx => h x (by simp [hx])
        cases m with
        | link aim => cases hout
        | dir | file | fifo => exact hrest

theorem followLink_congr {budget : Nat} {target : String}
    (h : ∀ x ∈ visitsLink fs budget loc target, Agree fs fs' x) :
    followLink fs' budget loc target = followLink fs budget loc target := by
  induction budget generalizing loc target with
  | zero => rfl
  | succ budget ih =>
    rw [visitsLink] at h
    rw [followLink, followLink]
    split
    · rfl
    · exact walkWith_congr ht h fun _ _ hx => ih hx

theorem walkFrom_congr (h : ∀ x ∈ fs.visitsFrom through loc ss, Agree fs fs' x) :
    walkWith fs' (followLink fs' linkBudget) through loc ss =
      walkWith fs (followLink fs linkBudget) through loc ss :=
  walkWith_congr ht h fun _ _ hx => followLink_congr ht hx

end Terms

theorem Walk.walkWith {sp : Spot} (h : Walk fs follow through loc ss sp) :
    FileSystem.walkWith fs follow through loc ss = .ok sp := by
  induction h with
  | done => rfl
  | dot he hw ih | dotdot he hw ih =>
    rw [FileSystem.walkWith, he]
    exact ih
  | gap he hs hg =>
    rw [FileSystem.walkWith, he]
    simp [hs.1, hs.2.1, Nat.not_lt.mpr hs.2.2, hg]
  | @into loc s rest sp n he hs hg hn hw ih =>
    rw [FileSystem.walkWith, he]
    simp only [if_neg hs.1, if_neg hs.2.1, if_neg (Nat.not_lt.mpr hs.2.2), hg]
    cases n with
    | link aim => exact absurd hg (linkAt_eq_none.mp hn aim)
    | dir | file | fifo => exact ih
  | stay he hs hg ht =>
    rw [FileSystem.walkWith, he]
    simp [hs.1, hs.2.1, Nat.not_lt.mpr hs.2.2, hg, ht]
  | along he hs hg ht hf hw ih =>
    rw [FileSystem.walkWith, he]
    simp only [if_neg hs.1, if_neg hs.2.1, if_neg (Nat.not_lt.mpr hs.2.2), hg, ht,
      Bool.false_eq_true, if_false, hf]
    exact ih
  | alongGap he hs hg ht hf =>
    rw [FileSystem.walkWith, he]
    simp [hs.1, hs.2.1, Nat.not_lt.mpr hs.2.2, hg, ht, hf]

section Steps

variable {s target : String} {rest : List String} (he : fs.enter loc = .ok ()) (hs : Plain s)

include he hs

theorem visitsWith_into {n : Node} (hg : fs.get? (loc ++ [s]) = some n)
    (hn : fs.linkAt (loc ++ [s]) = none) :
    visitsWith fs follow inside through loc (s :: rest) =
      loc :: (loc ++ [s]) :: visitsWith fs follow inside through (loc ++ [s]) rest := by
  rw [visitsWith, he]
  simp only [if_neg hs.1, if_neg hs.2.1, if_neg (Nat.not_lt.mpr hs.2.2), hg]
  cases n with
  | link aim => exact absurd hg (linkAt_eq_none.mp hn aim)
  | dir | file | fifo => rfl

theorem visitsWith_gap (hg : fs.get? (loc ++ [s]) = none) :
    visitsWith fs follow inside through loc (s :: rest) = [loc, loc ++ [s]] := by
  rw [visitsWith, he]
  simp only [if_neg hs.1, if_neg hs.2.1, if_neg (Nat.not_lt.mpr hs.2.2), hg]

variable (hg : fs.get? (loc ++ [s]) = some (.link target))

include hg

theorem visitsWith_stay (ht : through = false) :
    visitsWith fs follow inside through loc [s] = [loc, loc ++ [s]] := by
  rw [visitsWith, he]
  simp [hs.1, hs.2.1, Nat.not_lt.mpr hs.2.2, hg, ht]

theorem visitsWith_along {found : Location} (ht : (rest.isEmpty && !through) = false)
    (hf : follow loc target = .ok (.node found)) :
    visitsWith fs follow inside through loc (s :: rest) =
      loc :: (loc ++ [s]) ::
        (inside loc target ++ visitsWith fs follow inside through found rest) := by
  rw [visitsWith, he]
  simp only [if_neg hs.1, if_neg hs.2.1, if_neg (Nat.not_lt.mpr hs.2.2), hg, ht,
    Bool.false_eq_true, if_false, hf]

theorem visitsWith_alongGap {d : Location} {name : String} (ht : through = true)
    (hf : follow loc target = .ok (.gap d name)) :
    visitsWith fs follow inside through loc [s] =
      loc :: (loc ++ [s]) :: inside loc target := by
  rw [visitsWith, he]
  simp [hs.1, hs.2.1, Nat.not_lt.mpr hs.2.2, hg, ht, hf]

end Steps

theorem Walk.mem_visitsWith {d : Location} (h : Walk fs follow through loc ss (.node d)) :
    d ∈ visitsWith fs follow inside through loc ss := by
  generalize hsp : Spot.node d = sp at h
  induction h with
  | done loc =>
    cases hsp
    exact List.mem_singleton_self d
  | gap | alongGap => cases hsp
  | dot he hw ih | dotdot he hw ih =>
    rw [visitsWith, he]
    exact List.mem_cons_of_mem _ (ih hsp)
  | into he hs hg hn hw ih =>
    rw [visitsWith_into he hs hg hn]
    exact List.mem_cons_of_mem _ (List.mem_cons_of_mem _ (ih hsp))
  | stay he hs hg ht =>
    cases hsp
    rw [visitsWith_stay he hs hg ht]
    simp
  | along he hs hg ht hf hw ih =>
    rw [visitsWith_along he hs hg ht hf]
    simp [ih hsp]

section Paths

variable {p : String}

theorem spot_congr (ht : fs'.terms = fs.terms) (h : ∀ x ∈ fs.visits through p, Agree fs fs' x) :
    fs'.spot through p = fs.spot through p := by
  have hwalk := walkFrom_congr ht h
  rw [spot, spot]
  split
  · rfl
  rw [start_of_terms ht, hwalk]
  cases hw : walkWith fs (followLink fs linkBudget) through (fs.start p) (stepsThrough p) with
  | error e => rfl
  | ok sp =>
    cases sp with
    | gap d s => rfl
    | node loc =>
      dsimp only
      rw [(h loc (walk_of_walkWith hw).mem_visitsWith).isSome]

theorem fileExists_congr (ht : fs'.terms = fs.terms) (h : ∀ x ∈ fs.visits true p, Agree fs fs' x) :
    fs'.fileExists p = fs.fileExists p := by
  rw [fileExists, fileExists, stat, stat, spot_congr ht h]
  cases hs : fs.spot true p with
  | error e => rfl
  | ok sp =>
    cases sp with
    | gap d s => rfl
    | node loc =>
      obtain ⟨n, hn⟩ := spot_node hs
      obtain ⟨m, hm, hout⟩ := (h loc (walk_of_spot hs).mem_visitsWith).some hn
      dsimp only
      rw [hn, hm]
      dsimp only
      rw [Node.isDir_of_outline hout]

theorem entry_name {d : Location} {s : String} {slash : Bool}
    (h : fs.entry p = .ok ⟨d, .name s, slash⟩) :
    ∃ front, steps p = front ++ [s] ∧
      walkWith fs (followLink fs linkBudget) true (fs.start p) front = .ok (.node d) ∧
      fs.enter d = .ok () ∧ Plain s ∧ (slash = false → stepsThrough p = front ++ [s]) := by
  cases entry_cases h with
  | inl hroot =>
    obtain ⟨_, _, he⟩ := hroot
    cases he
  | inr hname =>
    obtain ⟨front, t, hsteps, hw, henter, hslash, hlast⟩ := hname
    obtain ⟨hplain, rfl⟩ : Plain t ∧ t = s := by
      obtain ⟨_, hl⟩ | ⟨_, hl⟩ | ⟨hp, hl⟩ := hlast
      · cases hl
      · cases hl
      · cases hl
        exact ⟨hp, rfl⟩
    refine ⟨front, hsteps, hw.walkWith, henter, hplain, fun hfalse => ?_⟩
    rw [stepsThrough, hsteps]
    refine if_neg fun hend => ?_
    rw [hfalse] at hslash
    simp [hend.1] at hslash

theorem spot_eq_error {e : Errno} (h : walkWith fs (followLink fs linkBudget) through (fs.start p)
    (stepsThrough p) = .error e) : ∃ e', fs.spot through p = .error e' := by
  rw [spot]
  split
  · exact ⟨_, rfl⟩
  · rw [h]
    exact ⟨e, rfl⟩

theorem stat_of_spot {l : Location} (h : fs.spot true p = .ok (.node l)) :
    ∃ n, fs.stat p = .ok n := by
  obtain ⟨n, hn⟩ := spot_node h
  refine ⟨n, ?_⟩
  rw [stat, h]
  dsimp only
  rw [hn]

def tree (fs : FileSystem) (p : String) (below : Location) : Option Node :=
  match fs.spot true p with
  | .ok (.node d) => fs.get? (d ++ below)
  | _ => none

theorem tree_congr (ht : fs'.terms = fs.terms) (h : ∀ x ∈ fs.visits true p, Agree fs fs' x)
    (hg : ∀ d below, fs.spot true p = .ok (.node d) →
      fs'.get? (d ++ below) = fs.get? (d ++ below)) : fs'.tree p = fs.tree p := by
  funext below
  rw [tree, tree, spot_congr ht h]
  split
  · rename_i d hs
    exact hg d below hs
  · rfl

theorem tree_eq_none {e : Errno} (h : fs.stat p = .error e) : fs.tree p = fun _ => none := by
  funext below
  rw [tree]
  split
  · rename_i d hs
    obtain ⟨n, hn⟩ := stat_of_spot hs
    rw [h] at hn
    cases hn
  · rfl

end Paths

def Passage (fs : FileSystem) (x : Location) : Prop :=
  ∃ n, fs.get? x = some n ∧ (n.isDir = true ∨ ∃ target, n = .link target)

theorem passage_of_enter (h : fs.enter loc = .ok ()) : fs.Passage loc := by
  obtain ⟨mode, hmode, _⟩ := enter_eq_ok.mp h
  exact ⟨_, hmode, .inl rfl⟩

theorem Walk.passage {sp : Spot} (h : Walk fs follow through loc ss sp) (hss : ss ≠ []) :
    fs.Passage loc := by
  cases h with
  | done => exact absurd rfl hss
  | dot he | dotdot he | gap he | into he | stay he | along he | alongGap he =>
    exact passage_of_enter he

/-- A walk that comes to its end has looked at nothing but directories, links and that end. -/
theorem Walk.visited {sp : Spot} (h : Walk fs follow through loc ss sp)
    (hin : ∀ loc target sp, follow loc target = .ok sp →
      ∀ x ∈ inside loc target, x = sp.loc ∨ fs.Passage x) :
    ∀ x ∈ visitsWith fs follow inside through loc ss, x = sp.loc ∨ fs.Passage x := by
  -- where a walk has come to, it goes on from a directory or is at its end
  have hnext : ∀ {loc : Location} {rest : List String} {sp : Spot},
      Walk fs follow through loc rest sp → loc = sp.loc ∨ fs.Passage loc := by
    intro loc rest sp hw
    cases rest with
    | nil =>
      cases hw
      exact .inl rfl
    | cons => exact .inr (hw.passage (by simp))
  induction h with
  | done loc =>
    intro x hx
    exact .inl (List.mem_singleton.mp hx)
  | dot he hw ih | dotdot he hw ih =>
    intro x hx
    rw [visitsWith, he] at hx
    cases List.mem_cons.mp hx with
    | inl hx => exact .inr (hx ▸ passage_of_enter he)
    | inr hx => exact ih x hx
  | gap he hs hg =>
    intro x hx
    rw [visitsWith_gap he hs hg, List.mem_pair] at hx
    obtain hx | hx := hx
    · exact .inr (hx ▸ passage_of_enter he)
    · exact .inl hx
  | into he hs hg hn hw ih =>
    intro x hx
    rw [visitsWith_into he hs hg hn, List.mem_cons, List.mem_cons] at hx
    obtain hx | hx | hx := hx
    · exact .inr (hx ▸ passage_of_enter he)
    · exact hx ▸ hnext hw
    · exact ih x hx
  | stay he hs hg ht =>
    intro x hx
    rw [visitsWith_stay he hs hg ht, List.mem_pair] at hx
    obtain hx | hx := hx
    · exact .inr (hx ▸ passage_of_enter he)
    · exact .inl hx
  | along he hs hg ht hf hw ih =>
    intro x hx
    rw [visitsWith_along he hs hg ht hf, List.mem_cons, List.mem_cons, List.mem_append] at hx
    obtain hx | hx | hx | hx := hx
    · exact .inr (hx ▸ passage_of_enter he)
    · exact .inr (hx ▸ ⟨_, hg, .inr ⟨_, rfl⟩⟩)
    · cases hin _ _ _ hf x hx with
      | inr hp => exact .inr hp
      | inl hx => exact hx ▸ hnext hw
    · exact ih x hx
  | alongGap he hs hg ht hf =>
    intro x hx
    rw [visitsWith_alongGap he hs hg ht hf, List.mem_cons, List.mem_cons] at hx
    obtain hx | hx | hx := hx
    · exact .inr (hx ▸ passage_of_enter he)
    · exact .inr (hx ▸ ⟨_, hg, .inr ⟨_, rfl⟩⟩)
    · exact hin _ _ _ hf x hx

theorem followLink_visited {budget : Nat} {target : String} {sp : Spot}
    (h : followLink fs budget loc target = .ok sp) :
    ∀ x ∈ visitsLink fs budget loc target, x = sp.loc ∨ fs.Passage x := by
  induction budget generalizing loc target sp with
  | zero => cases h
  | succ budget ih =>
    rw [followLink] at h
    split at h
    · cases h
    · rw [visitsLink]
      exact (walk_of_walkWith h).visited fun _ _ _ hf => ih hf

theorem walkFrom_visited {sp : Spot}
    (h : walkWith fs (followLink fs linkBudget) through loc ss = .ok sp) :
    ∀ x ∈ fs.visitsFrom through loc ss, x = sp.loc ∨ fs.Passage x :=
  (walk_of_walkWith h).visited fun _ _ _ hf => followLink_visited hf

def Spot.settled (fs : FileSystem) : Spot → Spot
  | .node d => .node d
  | .gap d s => if (fs.get? (d ++ [s])).isSome then .node (d ++ [s]) else .gap d s

/-- All that stands in the first file system stands in the second too, bytes apart. -/
structure Retains (fs fs' : FileSystem) : Prop where
  terms : fs'.terms = fs.terms
  agree : ∀ x n, fs.get? x = some n → Agree fs fs' x

namespace Retains

theorem refl (fs : FileSystem) : Retains fs fs := ⟨rfl, fun _ _ _ => rfl⟩

theorem trans {fs₁ : FileSystem} (h : Retains fs fs₁) (h' : Retains fs₁ fs') : Retains fs fs' := by
  refine ⟨h'.terms.trans h.terms, fun x n hn => ?_⟩
  obtain ⟨m, hm, _⟩ := (h.agree x n hn).some hn
  exact (h'.agree x m hm).trans (h.agree x n hn)

theorem of_within (h : Within fs fs') : Retains fs fs' :=
  ⟨h.terms.symm, fun x n hn => .of_eq (by rw [h.get? x n hn, hn])⟩

variable (h : Retains fs fs')

include h

theorem erase (x : Location) : Retains (fs.erase x) (fs'.erase x) := by
  refine ⟨h.terms, fun y n hn => ?_⟩
  rw [get?_erase] at hn
  split at hn
  · cases hn
  rename_i hy
  rw [Agree, get?_erase, get?_erase, if_neg hy, if_neg hy]
  exact h.agree y n hn

theorem enter (he : fs.enter loc = .ok ()) : fs'.enter loc = .ok () := by
  obtain ⟨mode, hmode, _⟩ := enter_eq_ok.mp he
  rw [(h.agree loc _ hmode).enter h.terms, he]

theorem link {x : Location} {target : String} (hx : fs.get? x = some (.link target)) :
    fs'.get? x = some (.link target) := by
  obtain ⟨m, hm, hout⟩ := (h.agree x _ hx).some hx
  rw [hm, Node.outline_eq_link hout]

theorem walkWith {sp : Spot}
    (hf : ∀ loc target sp, follow loc target = .ok sp → sp.Free fs'.linkAt →
      follow' loc target = .ok (sp.settled fs'))
    (hsp : sp.Free fs'.linkAt) (hw : FileSystem.walkWith fs follow through loc ss = .ok sp) :
    FileSystem.walkWith fs' follow' through loc ss = .ok (sp.settled fs') := by
  have hwalk := walk_of_walkWith hw
  clear hw
  apply Walk.walkWith
  induction hwalk with
  | done loc => exact .done loc
  | dot he hw ih => exact .dot (h.enter he) (ih hsp)
  | dotdot he hw ih => exact .dotdot (h.enter he) (ih hsp)
  | @gap loc s he hs hg =>
    rw [Spot.settled]
    cases hg' : fs'.get? (loc ++ [s]) with
    | none => exact .gap (h.enter he) hs hg'
    | some n => exact .into (h.enter he) hs hg' hsp (.done _)
  | into he hs hg hn hw ih =>
    obtain ⟨m, hm, hout⟩ := (h.agree _ _ hg).some hg
    refine .into (h.enter he) hs hm (linkAt_eq_none.mpr fun aim ht => ?_) (ih hsp)
    rw [hm, Option.some.injEq] at ht
    rw [ht] at hout
    exact linkAt_eq_none.mp hn aim (hg.trans (congrArg some (Node.outline_eq_link hout.symm)))
  | stay he hs hg ht => exact .stay (h.enter he) hs (h.link hg) ht
  | along he hs hg ht hfl hw ih =>
    exact .along (h.enter he) hs (h.link hg) ht (hf _ _ _ hfl trivial) (ih hsp)
  | @alongGap loc d s target name he hs hg ht hfl =>
    have hfl' := hf _ _ _ hfl hsp
    rw [Spot.settled] at hfl' ⊢
    split
    · rename_i hsome
      rw [if_pos hsome] at hfl'
      exact .along (h.enter he) hs (h.link hg) (by simp [ht]) hfl' (.done _)
    · rename_i hsome
      rw [if_neg hsome] at hfl'
      exact .alongGap (h.enter he) hs (h.link hg) ht hfl'

theorem followLink {budget : Nat} {target : String} {sp : Spot}
    (hf : FileSystem.followLink fs budget loc target = .ok sp) (hsp : sp.Free fs'.linkAt) :
    FileSystem.followLink fs' budget loc target = .ok (sp.settled fs') := by
  induction budget generalizing loc target sp with
  | zero => cases hf
  | succ budget ih =>
    rw [FileSystem.followLink] at hf ⊢
    split
    · rename_i hempty
      rw [if_pos hempty] at hf
      cases hf
    · rename_i hempty
      rw [if_neg hempty] at hf
      exact h.walkWith (fun _ _ _ => ih) hsp hf

theorem walkFrom {d : Location}
    (hw : FileSystem.walkWith fs (FileSystem.followLink fs linkBudget) through loc ss =
      .ok (.node d)) :
    FileSystem.walkWith fs' (FileSystem.followLink fs' linkBudget) through loc ss = .ok (.node d) :=
  h.walkWith (fun _ _ _ => h.followLink) (show (Spot.node d).Free fs'.linkAt from trivial) hw

theorem spot {p : String} {d : Location} (hs : fs.spot through p = .ok (.node d)) :
    fs'.spot through p = .ok (.node d) := by
  have hw := h.walkFrom (walkWith_of_spot hs)
  obtain ⟨n, hn⟩ := spot_node hs
  rw [spot_of_pathFault? (pathFault?_of_spot hs), start_of_terms h.terms, hw]
  dsimp only
  rw [(h.agree d n hn).isSome, hn]
  rfl

theorem entry {p : String} {e : Entry} (he : fs.entry p = .ok e) : fs'.entry p = .ok e := by
  have hfault := pathFault?_of_entry he
  rw [FileSystem.entry, hfault] at he ⊢
  dsimp only at he ⊢
  split at he
  · exact he
  rename_i s front hs
  rw [start_of_terms h.terms]
  split at he
  · cases he
  · cases he
  rename_i d hw
  rw [h.walkFrom hw]
  split at he
  · cases he
  rename_i henter
  dsimp only
  rw [h.enter henter]
  exact he

theorem spot_filled {p s : String} {d : Location} {n : Node}
    (hs : fs.spot through p = .ok (.gap d s)) (hn : fs'.get? (d ++ [s]) = some n)
    (hlink : fs'.linkAt (d ++ [s]) = none) : fs'.spot through p = .ok (.node (d ++ [s])) := by
  have hw := h.walkWith (fun _ _ _ => h.followLink)
    (show (Spot.gap d s).Free fs'.linkAt from hlink) (walkWith_of_spot hs)
  rw [Spot.settled, hn, Option.isSome_some, if_pos rfl] at hw
  rw [spot_of_pathFault? (pathFault?_of_spot hs), start_of_terms h.terms, hw]
  dsimp only
  rw [hn]
  rfl

end Retains

section Entry

variable {p s : String} {d : Location}

theorem spot_of_walk {l : Location} {n : Node} (hp : pathFault? p = none) (hn : fs.get? l = some n)
    (hw : walkWith fs (followLink fs linkBudget) through (fs.start p) (stepsThrough p) =
      .ok (.node l)) : fs.spot through p = .ok (.node l) := by
  rw [spot_of_pathFault? hp, hw]
  dsimp only
  rw [hn]
  rfl

variable {slash : Bool} (h : fs.entry p = .ok ⟨d, .name s, slash⟩)

include h

theorem visitsAbove_of_entry : ∃ front, steps p = front ++ [s] ∧
    fs.visitsAbove p = fs.visitsFrom true (fs.start p) front ∧
    walkWith fs (followLink fs linkBudget) true (fs.start p) front = .ok (.node d) := by
  obtain ⟨front, hsteps, hw, _⟩ := entry_name h
  exact ⟨front, hsteps, by rw [visitsAbove, hsteps, List.dropLast_concat], hw⟩

theorem not_mem_visitsAbove {x : Location} (hx : ∀ mode, fs.get? x ≠ some (.dir mode))
    (hl : fs.linkAt x ≠ none → x ∉ fs.visitsAbove p) : x ∉ fs.visitsAbove p := by
  intro hmem
  refine hl ?_ hmem
  obtain ⟨front, _, hvisits, hw⟩ := visitsAbove_of_entry h
  obtain ⟨_, _, _, he, _⟩ := entry_name h
  rw [hvisits] at hmem
  have hpassage : fs.Passage x := by
    cases walkFrom_visited hw x hmem with
    | inl hend =>
      have hd : x = d := hend
      exact hd ▸ passage_of_enter he
    | inr hpassage => exact hpassage
  obtain ⟨n, hn, hdir | ⟨target, rfl⟩⟩ := hpassage
  · cases n with
    | dir mode => exact absurd hn (hx mode)
    | file | link | fifo => cases hdir
  · rw [linkAt_eq_some.mpr hn]
    exact nofun

theorem entry_congr (ht : fs'.terms = fs.terms) (hv : ∀ x ∈ fs.visitsAbove p, Agree fs fs' x) :
    fs'.entry p = .ok ⟨d, .name s, slash⟩ := by
  obtain ⟨front, hsteps, hvisits, hw⟩ := visitsAbove_of_entry h
  rw [hvisits] at hv
  have hd : Agree fs fs' d := hv d (walk_of_walkWith hw).mem_visitsWith
  have hwalk := walkFrom_congr ht hv
  have hfault := pathFault?_of_entry h
  rw [entry, hfault, hsteps, List.reverse_append, List.reverse_singleton,
    List.singleton_append] at h ⊢
  dsimp only at h ⊢
  rw [List.reverse_reverse] at h ⊢
  rw [start_of_terms ht, hwalk, hw]
  rw [hw] at h
  dsimp only at h ⊢
  rw [hd.enter ht]
  exact h

/-- A way does not change with what is no directory. -/
theorem entry_of_changed {xs : List Location} (ht : fs'.terms = fs.terms)
    (hxs : ∀ x ∈ xs, (∀ mode, fs.get? x ≠ some (.dir mode)) ∧
      (fs.linkAt x ≠ none → x ∉ fs.visitsAbove p))
    (hg : ∀ x, x ∉ xs → fs'.get? x = fs.get? x) : fs'.entry p = .ok ⟨d, .name s, slash⟩ :=
  entry_congr h ht fun x hx => .of_eq (hg x fun hmem =>
    not_mem_visitsAbove h (hxs x hmem).1 (hxs x hmem).2 hx)

end Entry

section Spot

variable {p s : String} {d : Location} (h : fs.entry p = .ok ⟨d, .name s, false⟩)

include h

theorem walkWith_entry (through : Bool) :
    walkWith fs (followLink fs linkBudget) through (fs.start p) (stepsThrough p) =
      walkWith fs (followLink fs linkBudget) through d [s] := by
  obtain ⟨front, _, hw, _, _, hsteps⟩ := entry_name h
  rw [hsteps rfl, walkWith_onward, hw]
  rfl

theorem spot_entry_none (hg : fs.get? (d ++ [s]) = none) (through : Bool) :
    fs.spot through p = .ok (.gap d s) := by
  obtain ⟨_, _, _, he, hs, _⟩ := entry_name h
  have hw : walkWith fs (followLink fs linkBudget) through d [s] = .ok (.gap d s) :=
    (Walk.gap he hs hg).walkWith
  rw [spot_of_pathFault? (pathFault?_of_entry h), walkWith_entry h, hw]

theorem spot_entry_node {n : Node} (hg : fs.get? (d ++ [s]) = some n)
    (hn : fs.linkAt (d ++ [s]) = none) (through : Bool) :
    fs.spot through p = .ok (.node (d ++ [s])) := by
  obtain ⟨_, _, _, he, hs, _⟩ := entry_name h
  refine spot_of_walk (pathFault?_of_entry h) hg ?_
  rw [walkWith_entry h]
  exact (Walk.into he hs hg hn (.done _)).walkWith

theorem spot_entry_link {aim : String} {f : Location} {n : Node}
    (hg : fs.get? (d ++ [s]) = some (.link aim))
    (hf : followLink fs linkBudget d aim = .ok (.node f)) (hn : fs.get? f = some n) :
    fs.spot true p = .ok (.node f) := by
  obtain ⟨_, _, _, he, hs, _⟩ := entry_name h
  refine spot_of_walk (pathFault?_of_entry h) hn ?_
  rw [walkWith_entry h]
  exact (Walk.along he hs hg (by simp) hf (.done f)).walkWith

/-- What a path leads to is what it names, or what a link leads to that it names. -/
theorem spot_entry_cases {f : Location} (hs : fs.spot true p = .ok (.node f)) :
    (f = d ++ [s] ∧ fs.linkAt (d ++ [s]) = none) ∨
      ∃ aim, fs.get? (d ++ [s]) = some (.link aim) ∧
        followLink fs linkBudget d aim = .ok (.node f) := by
  obtain ⟨_, _, _, _, hplain, _⟩ := entry_name h
  have hw := walkWith_of_spot hs
  rw [walkWith_entry h] at hw
  cases walk_of_walkWith hw with
  | dot => exact absurd rfl hplain.1
  | dotdot => exact absurd rfl hplain.2.1
  | into _ _ _ hn hw =>
    cases hw
    exact .inl ⟨rfl, hn⟩
  | stay _ _ _ ht => cases ht
  | along _ _ hg _ hf hw =>
    cases hw
    exact .inr ⟨_, hg, hf⟩

theorem lstat_entry_none (hg : fs.get? (d ++ [s]) = none) : fs.lstat p = .error .notFound := by
  rw [lstat, spot_entry_none h hg]

end Spot

theorem spot_of_erase {p : String} {d l : Location} {s : String}
    (h : fs.entry p = .ok ⟨d, .name s, false⟩) (hr : Retains fs' (fs.erase (d ++ [s]))) :
    fs'.spot through p ≠ .ok (.node l) := by
  intro hspot
  obtain ⟨front, _, hw, _, hplain, hsteps⟩ := entry_name h
  have hwalk := walkWith_of_spot hspot
  rw [hsteps rfl] at hwalk
  obtain ⟨d', hd', hlast⟩ := walkWith_append hwalk
  -- nothing more stands after the removal, so the way to the directory is the one of before
  have hfront := (hr.trans (.of_within (erase_within fs (d ++ [s])))).walkFrom hd'
  have hstart : fs'.start p = fs.start p := start_of_terms hr.terms.symm p
  rw [hstart, hw, Except.ok.injEq, Spot.node.injEq] at hfront
  subst d'
  have hnone : fs'.get? (d ++ [s]) = none := by
    rw [Option.eq_none_iff_forall_ne_some]
    intro m hm
    obtain ⟨k, hk, _⟩ := (hr.agree _ m hm).some hm
    rw [get?_erase, if_pos rfl] at hk
    cases hk
  cases walk_of_walkWith hlast with
  | dot => exact hplain.1 rfl
  | dotdot => exact hplain.2.1 rfl
  | into _ _ hg | stay _ _ hg | along _ _ hg =>
    rw [hnone] at hg
    cases hg

end FileSystem

end Crosscheck
