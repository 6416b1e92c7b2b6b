import Crosscheck.Proofs.FileSystem.Place

namespace Crosscheck.Path

/-- What a path says, however it is written: whether it starts at the root, how far it goes up
before anything else, and by which names it goes down then. -/
@[ext] structure Route where
  rooted : Bool
  ups : Nat
  names : List String
  deriving DecidableEq, Repr

namespace Route

/-- One component more. An empty one and a single dot change nothing. Two dots take the last name
back; where there is none they go up, but not from the root. -/
def next (r : Route) (c : String) : Route :=
  if c = "" ∨ c = "." then r
  else if c = ".." then
    if r.names ≠ [] then { r with names := r.names.dropLast }
    else if r.rooted then r
    else { r with ups := r.ups + 1 }
  else { r with names := r.names ++ [c] }

end Route

def route (p : String) : Route :=
  ((p.toList.splitOn '/').map String.ofList).foldl Route.next ⟨isAbs p, 0, []⟩

example : route "/a//b/./../../../c/" = ⟨true, 0, ["c"]⟩ := by decide +kernel

example : route "a/../../b/.." = ⟨false, 1, []⟩ := by decide +kernel

namespace Route

/-- A stack of components, innermost first, holds the steps up of a route and its names. -/
structure Stacked (r : Route) (up : List String) : Prop where
  stack : up.reverse = List.replicate r.ups ".." ++ r.names
  names : ".." ∉ r.names
  rooted : r.rooted = true → r.ups = 0

theorem Stacked.next {r : Route} {up : List String} (h : r.Stacked up) {c : String} (hne : c ≠ "")
    (hdot : c ≠ ".") : (r.next c).Stacked (step r.rooted up c) := by
  obtain ⟨rooted, ups, names⟩ := r
  obtain ⟨hstack, hnames, hrooted⟩ := h
  dsimp only at hstack hnames hrooted
  have hup : up = names.reverse ++ List.replicate ups ".." := by
    rw [← List.reverse_reverse up, hstack]
    simp
  by_cases hc : c = ".."
  · subst c
    obtain rfl | ⟨front, last, rfl⟩ := List.eq_nil_or_concat names
    · cases rooted with
      | true =>
        have h0 : ups = 0 := hrooted rfl
        subst ups
        simp only [List.reverse_nil, List.replicate_zero, List.append_nil] at hup
        subst up
        exact ⟨rfl, hnames, hrooted⟩
      | false =>
        -- the new step up comes to lie on the others
        have hstep : step false up ".." = ".." :: up := by
          cases ups with
          | zero => rw [hup]; rfl
          | succ n => simp [hup, List.replicate_succ, step]
        refine ⟨?_, hnames, fun h => absurd h Bool.false_ne_true⟩
        rw [hstep, hup]
        simp [Route.next, ← List.replicate_succ']
    · rw [List.concat_eq_append] at hup hnames ⊢
      have hlast : last ≠ ".." := fun he => hnames (by simp [he])
      refine ⟨?_, fun hmem => ?_, ?_⟩
      · simp [Route.next, hup, step, hlast]
      · have hfront : ".." ∈ front := by simpa [Route.next] using hmem
        exact hnames (List.mem_append_left _ hfront)
      · simpa [Route.next] using hrooted
  · refine ⟨?_, ?_, ?_⟩
    · simp [Route.next, hne, hdot, hc, hup, step]
    · simpa [Route.next, hne, hdot, hc, Ne.symm hc] using hnames
    · simpa [Route.next, hne, hdot, hc] using hrooted

theorem rooted_next (r : Route) (c : String) : (r.next c).rooted = r.rooted := by
  rw [next]
  split_ifs <;> rfl

theorem Stacked.foldl {cs : List String} (hcs : ∀ c ∈ cs, c ≠ "" ∧ c ≠ ".") {r : Route}
    {up : List String} (h : r.Stacked up) :
    (cs.foldl Route.next r).Stacked (cs.foldl (step r.rooted) up) ∧
      (cs.foldl Route.next r).rooted = r.rooted := by
  induction cs generalizing r up with
  | nil => exact ⟨h, rfl⟩
  | cons c rest ih =>
    have hc := hcs c List.mem_cons_self
    have hrest := ih (fun d hd => hcs d (List.mem_cons_of_mem c hd)) (h.next hc.1 hc.2)
    rwa [rooted_next] at hrest

theorem foldl_next_filter (cs : List String) (r : Route) :
    (cs.filter fun c => c != "" && c != ".").foldl Route.next r = cs.foldl Route.next r := by
  rw [List.foldl_filter]
  congr 1
  funext r c
  by_cases h : c = "" ∨ c = "."
  · rw [if_neg (by simpa [imp_iff_not_or] using h), Route.next, if_pos h]
  · rw [if_pos (by simpa using h)]

end Route

theorem route_stacked (p : String) :
    (route p).Stacked ((components p).foldl (step (isAbs p)) []) ∧ (route p).rooted = isAbs p := by
  have hstart : (⟨isAbs p, 0, []⟩ : Route).Stacked [] := ⟨rfl, by simp, fun _ => rfl⟩
  have hcs : ∀ c ∈ components p, c ≠ "" ∧ c ≠ "." := by
    intro c hc
    rw [components, List.mem_filter] at hc
    simpa using hc.2
  have h := hstart.foldl hcs
  have hroute : (components p).foldl Route.next ⟨isAbs p, 0, []⟩ = route p := by
    rw [components, Route.foldl_next_filter, splitAt_eq_splitOn, route]
  rwa [hroute] at h

/-- What is left of a path are the steps up of its route, and its names. -/
theorem names_eq_route (p : String) :
    names p = List.replicate (route p).ups ".." ++ (route p).names := by
  rw [names, reduce, (route_stacked p).1.stack]

theorem route_eq_iff (p q : String) :
    route p = route q ↔ isAbs p = isAbs q ∧ names p = names q := by
  constructor
  · intro h
    rw [names_eq_route, names_eq_route, ← (route_stacked p).2, ← (route_stacked q).2, h]
    exact ⟨rfl, rfl⟩
  · rintro ⟨habs, hnames⟩
    rw [names_eq_route, names_eq_route] at hnames
    have hcount : ∀ r : String, (List.replicate (route r).ups ".." ++ (route r).names).count ".." =
        (route r).ups := by
      intro r
      rw [List.count_append, List.count_replicate_self,
        List.count_eq_zero_of_not_mem (route_stacked r).1.names, Nat.add_zero]
    have hups : (route p).ups = (route q).ups := by rw [← hcount p, hnames, hcount q]
    rw [hups, List.append_cancel_left_eq] at hnames
    have hrooted : (route p).rooted = (route q).rooted := by
      rw [(route_stacked p).2, (route_stacked q).2, habs]
    exact Route.ext hrooted hups hnames

theorem route_clean (p : String) : route (clean p) = route p :=
  (route_eq_iff _ _).mpr ⟨isAbs_clean p, names_clean p⟩

/-- Where one comes to on a path that is followed from the end of a route. -/
def Route.follow (r : Route) (p : String) : Route :=
  ((p.toList.splitOn '/').map String.ofList).foldl Route.next r

theorem route_append_slash {a : String} (ha : a ≠ "") (b : String) :
    route (a ++ "/" ++ b) = (route a).follow b := by
  have hsplit : (a ++ "/" ++ b).toList.splitOn '/' = a.toList.splitOn '/' ++ b.toList.splitOn '/' := by
    have hlist : (a ++ "/" ++ b).toList = a.toList ++ '/' :: b.toList := by simp
    rw [hlist, List.splitOn_append_cons_self]
  have habs : isAbs (a ++ "/" ++ b) = isAbs a := by
    rw [String.append_assoc, isAbs_append ha]
  rw [route, hsplit, habs, List.map_append, List.foldl_append, Route.follow, route]

theorem names_of_isAbs {p : String} (hp : isAbs p = true) : names p = (route p).names := by
  obtain ⟨hstacked, hrooted⟩ := route_stacked p
  have hups : (route p).ups = 0 := hstacked.rooted (hrooted.trans hp)
  rw [names_eq_route, hups, List.replicate_zero, List.nil_append]

/-- Two paths become the same when they are cleaned if and only if they have one route. -/
theorem clean_eq_clean_iff (p q : String) : clean p = clean q ↔ route p = route q := by
  rw [route_eq_iff]
  constructor
  · intro h
    rw [← isAbs_clean p, ← isAbs_clean q, ← names_clean p, ← names_clean q, h]
    exact ⟨rfl, rfl⟩
  · rintro ⟨habs, hnames⟩
    rw [clean_eq, clean_eq, habs, hnames]

end Crosscheck.Path
