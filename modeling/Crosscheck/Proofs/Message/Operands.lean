import Crosscheck.Proofs.Message

namespace Crosscheck.Message

section Reading

theorem length_numberFrom (seen : Option Nat) (cs : List Char) :
    (numberFrom seen cs).2.length ≤ cs.length := by
  induction cs generalizing seen with
  | nil => exact Nat.le_refl _
  | cons c rest ih =>
    rw [numberFrom]
    split
    · split
      · exact Nat.zero_le _
      · exact Nat.le_succ_of_le (ih _)
    · exact Nat.le_refl _

theorem length_readIndex (cs : List Char) : (readIndex cs).2.length ≤ cs.length := by
  rw [readIndex.eq_def]
  split
  · rename_i rest
    have hafter : (rest.dropWhile (· != ']')).tail.length ≤ rest.length := by
      rw [List.length_tail]
      exact Nat.le_trans (Nat.sub_le _ _) (List.dropWhile_sublist _).length_le
    split
    · exact Nat.le_succ _
    · dsimp only
      split <;> exact Nat.le_succ_of_le hafter
  · exact Nat.le_refl _

theorem length_readFlags (f : Flags) (cs : List Char) :
    (readFlags f cs).2.length ≤ cs.length := by
  fun_induction readFlags f cs with
  | case1 | case7 => exact Nat.le_refl _
  | case2 _ _ ih | case3 _ _ ih | case4 _ _ ih | case5 _ _ ih | case6 _ _ ih =>
    exact Nat.le_succ_of_le ih

theorem length_readSize (cs : List Char) : (readSize cs).2.length ≤ cs.length := by
  rw [readSize.eq_def]
  split
  · exact Nat.le_succ _
  · have hnumber := length_numberFrom none cs
    split
    all_goals
      rename_i h
      rwa [h] at hnumber

theorem length_readPrecision {cs rest : List Char} {index : Index} {size : Size}
    (h : readPrecision cs = some (index, size, rest)) : rest.length ≤ cs.length := by
  rw [readPrecision.eq_def] at h
  split at h
  · rename_i after
    have hsize := length_readSize (readIndex after).2
    have hindex := length_readIndex after
    dsimp only at h
    split at h
    all_goals
      rename_i hread
      rw [hread] at hsize
      cases h
      exact Nat.le_succ_of_le (Nat.le_trans hsize hindex)
  · cases h

theorem length_readDirective (cs : List Char) : (readDirective cs).2.length ≤ cs.length := by
  have hflags := length_readFlags {} cs
  have hindex := length_readIndex (readFlags {} cs).2
  have hsize := length_readSize (readIndex (readFlags {} cs).2).2
  have hverb (later : Bool) (rest : List Char) :
      (if later then (Index.absent, rest) else readIndex rest).2.tail.length ≤ rest.length := by
    rw [List.length_tail]
    split
    · exact Nat.sub_le _ _
    · exact Nat.le_trans (Nat.sub_le _ _) (length_readIndex rest)
  rw [readDirective]
  dsimp only
  split
  · rename_i i size rest hprecision
    have hrest := length_readPrecision hprecision
    exact Nat.le_trans (hverb _ rest) (by omega)
  · exact Nat.le_trans (hverb _ (readSize (readIndex (readFlags {} cs).2).2).2) (by omega)

/-- A template is read to its end with as much fuel as it has characters. -/
theorem segmentsFrom_fuel {cs : List Char} {fuel : Nat} (h : cs.length ≤ fuel) :
    segmentsFrom fuel cs = segmentsFrom cs.length cs := by
  induction hn : cs.length using Nat.strongRecOn generalizing cs fuel with
  | ind n ih =>
    subst hn
    cases cs with
    | nil => cases fuel <;> rfl
    | cons c rest =>
      obtain ⟨more, rfl⟩ : ∃ more, fuel = more + 1 := ⟨fuel - 1, by simp at h; omega⟩
      have hmore : rest.length ≤ more := Nat.le_of_succ_le_succ h
      rw [List.length_cons, segmentsFrom, segmentsFrom]
      split
      · have hread := length_readDirective rest
        have hlt : (readDirective rest).2.length < (c :: rest).length := Nat.lt_succ_of_le hread
        dsimp only
        rw [ih _ hlt (Nat.le_trans hread hmore) rfl, ih _ hlt hread rfl]
      · rw [ih _ (Nat.lt_succ_self _) hmore rfl]

theorem segments_wrapping (template : String) :
    segments ("%w: " ++ template) =
      .directive (verbAlone 'w') :: .literal ':' :: .literal ' ' :: segments template := by
  have hchars : ("%w: " ++ template).toList = '%' :: 'w' :: ':' :: ' ' :: template.toList := by
    simp
  have hfuel : template.toList.length ≤ template.toList.length + 1 := Nat.le_succ _
  rw [segments, hchars]
  simp only [List.length_cons]
  rw [segmentsFrom, if_pos rfl, readDirective_verb (by decide)]
  dsimp only
  rw [segmentsFrom, if_neg (by decide), segmentsFrom, if_neg (by decide), segmentsFrom_fuel hfuel,
    segments]

end Reading

namespace Cursor

theorem wraps_follow (count : Nat) (c : Cursor) (i : Index) :
    (c.follow count i).wraps = c.wraps := by
  cases i with
  | absent | malformed => rfl
  | «at» n =>
    rw [follow]
    split <;> rfl

theorem wraps_takeSize (operands : List Operand) (c : Cursor) :
    (c.takeSize operands).2.wraps = c.wraps := by
  rw [takeSize]
  split <;> rfl

theorem wraps_width (operands : List Operand) (c : Cursor) (st : Style) (size : Size) :
    (c.width operands st size).2.2.wraps = c.wraps := by
  cases size with
  | absent | literal => rfl
  | operand =>
    have htake := c.wraps_takeSize operands
    rw [width]
    split
    · rename_i h
      rwa [h] at htake
    · rename_i h
      rw [h] at htake
      split <;> exact htake

theorem wraps_precision (operands : List Operand) (c : Cursor) (st : Style) (size : Option Size) :
    (c.precision operands st size).2.2.wraps = c.wraps := by
  rw [precision.eq_def]
  split
  · rfl
  · rfl
  · rfl
  · have htake := c.wraps_takeSize operands
    split
    · rename_i h
      rw [h] at htake
      split <;> exact htake
    · rename_i h
      rwa [h] at htake

theorem wraps_verb (operands : List Operand) (c : Cursor) (st : Style) (v : Char) :
    c.wraps <+: (c.verb operands st v).2.wraps := by
  rw [verb]
  split
  · exact List.prefix_refl _
  split
  · exact List.prefix_refl _
  split
  · exact List.prefix_refl _
  · dsimp only
    split
    · exact List.prefix_append ..
    · exact List.prefix_refl _

theorem wraps_directive (operands : List Operand) (c : Cursor) (d : Directive) :
    c.wraps <+: (c.directive operands d).2.wraps := by
  have hmark (c : Cursor) :
      (if d.misplaced then { c with good := false } else c).wraps = c.wraps := by
    split <;> rfl
  have hkept {wraps : List Nat} (h : wraps = c.wraps) : c.wraps <+: wraps :=
    h ▸ List.prefix_refl c.wraps
  rw [directive]
  dsimp only
  split
  · apply hkept
    rw [wraps_follow, wraps_precision, wraps_follow, hmark, wraps_width, wraps_follow]
  · refine List.IsPrefix.trans (hkept ?_) (wraps_verb ..)
    rw [wraps_follow, wraps_precision, wraps_follow, hmark, wraps_width, wraps_follow]

end Cursor

theorem wraps_renderFrom (operands : List Operand) (c : Cursor) (segments : List Segment) :
    c.wraps <+: (renderFrom operands c segments).2.wraps := by
  induction segments generalizing c with
  | nil => exact List.prefix_refl _
  | cons s rest ih =>
    cases s with
    | literal ch => exact ih c
    | directive d => exact (c.wraps_directive operands d).trans (ih _)

def Segment.Unindexed : Segment → Prop
  | .literal _ => True
  | .directive d => d.index = .absent ∧ d.precisionIndex = .absent ∧ d.verbIndex = .absent

instance : DecidablePred Segment.Unindexed
  | .literal _ => isTrue trivial
  | .directive _ => inferInstanceAs (Decidable (_ ∧ _ ∧ _))

def Unindexed (template : String) : Prop := ∀ s ∈ segments template, s.Unindexed

instance : DecidablePred Unindexed := fun template =>
  inferInstanceAs (Decidable (∀ s ∈ segments template, s.Unindexed))

namespace Cursor

/-- The same place when there is one more operand in front. -/
def ahead (c : Cursor) (wraps : List Nat) : Cursor := { c with next := c.next + 1, wraps }

theorem takeSize_ahead (o : Operand) (operands : List Operand) (c : Cursor) (wraps : List Nat) :
    (c.ahead wraps).takeSize (o :: operands) =
      ((c.takeSize operands).1, (c.takeSize operands).2.ahead wraps) := by
  rw [takeSize, takeSize, ahead, List.getElem?_cons_succ]
  split <;> rfl

theorem width_ahead (o : Operand) (operands : List Operand) (c : Cursor) (wraps : List Nat)
    (st : Style) (size : Size) :
    (c.ahead wraps).width (o :: operands) st size =
      ((c.width operands st size).1, (c.width operands st size).2.1,
        (c.width operands st size).2.2.ahead wraps) := by
  cases size with
  | absent | literal => rfl
  | operand =>
    rw [width, width, takeSize_ahead]
    obtain ⟨_ | n, c'⟩ := c.takeSize operands
    · rfl
    · dsimp only
      split <;> rfl

theorem precision_ahead (o : Operand) (operands : List Operand) (c : Cursor) (wraps : List Nat)
    (st : Style) (size : Option Size) :
    (c.ahead wraps).precision (o :: operands) st size =
      ((c.precision operands st size).1, (c.precision operands st size).2.1,
        (c.precision operands st size).2.2.ahead wraps) := by
  obtain _ | _ | _ | _ := size
  · rfl
  · rfl
  · rfl
  · rw [precision, precision, takeSize_ahead]
    obtain ⟨_ | n, c'⟩ := c.takeSize operands
    · rfl
    · dsimp only
      split <;> rfl

theorem verb_ahead (o : Operand) (operands : List Operand) (c : Cursor) (wraps : List Nat)
    (st : Style) (v : Char) :
    ∃ wraps', (c.ahead wraps).verb (o :: operands) st v =
      ((c.verb operands st v).1, (c.verb operands st v).2.ahead wraps') := by
  rw [verb, verb]
  split
  · exact ⟨wraps, rfl⟩
  change ∃ wraps', (if c.good = false then _ else _) = _
  split
  · exact ⟨wraps, rfl⟩
  rw [ahead, List.getElem?_cons_succ]
  split
  · exact ⟨wraps, rfl⟩
  · exact ⟨_, rfl⟩

theorem directive_ahead (o : Operand) (operands : List Operand) (c : Cursor) (wraps : List Nat)
    {d : Directive} (hd : (Segment.directive d).Unindexed) :
    ∃ wraps', (c.ahead wraps).directive (o :: operands) d =
      ((c.directive operands d).1, (c.directive operands d).2.ahead wraps') := by
  have hgood : ({ c.ahead wraps with good := true } : Cursor) =
      ({ c with good := true } : Cursor).ahead wraps := rfl
  have hmark (c : Cursor) :
      (if d.misplaced then { c.ahead wraps with good := false } else c.ahead wraps) =
        (if d.misplaced then { c with good := false } else c).ahead wraps := by
    split <;> rfl
  obtain ⟨hindex, hprecision, hverb⟩ := hd
  simp only [directive, hindex, hprecision, hverb, follow, hgood, width_ahead, hmark,
    precision_ahead]
  split
  · exact ⟨wraps, rfl⟩
  · rename_i v _
    generalize Cursor.precision .. = r
    obtain ⟨wraps', h⟩ := verb_ahead o operands r.2.2 wraps r.2.1 v
    exact ⟨wraps', by rw [h]⟩

end Cursor

/-- Directives that name no operand pass over one more in front without a trace. -/
theorem renderFrom_ahead (o : Operand) (operands : List Operand) (c : Cursor) (wraps : List Nat)
    {segments : List Segment} (h : ∀ s ∈ segments, s.Unindexed) :
    ∃ wraps', renderFrom (o :: operands) (c.ahead wraps) segments =
      ((renderFrom operands c segments).1, (renderFrom operands c segments).2.ahead wraps') := by
  induction segments generalizing c wraps with
  | nil => exact ⟨wraps, rfl⟩
  | cons s rest ih =>
    have hrest := fun c wraps => ih c wraps fun t ht => h t (List.mem_cons_of_mem s ht)
    cases s with
    | literal ch =>
      obtain ⟨wraps', hr⟩ := hrest c wraps
      exact ⟨wraps', by simp only [renderFrom, hr]⟩
    | directive d =>
      obtain ⟨wraps₁, hdirective⟩ := c.directive_ahead o operands wraps (h _ List.mem_cons_self)
      obtain ⟨wraps', hr⟩ := hrest (c.directive operands d).2 wraps₁
      exact ⟨wraps', by simp only [renderFrom, hdirective, hr]⟩

theorem extras_ahead (o : Operand) (operands : List Operand) (c : Cursor) (wraps : List Nat) :
    extras (o :: operands) (c.ahead wraps) = extras operands c := rfl

section Wrapping

variable (o : Operand) (operands : List Operand) (template : String)

theorem renderFrom_wrapping :
    renderFrom (o :: operands) Cursor.start (segments ("%w: " ++ template)) =
      let (out, c) := renderFrom (o :: operands) (Cursor.start.ahead [0]) (segments template)
      (o.show (Style.forVerb {} 'w') 'w' ++ ':' :: ' ' :: out, c) := by
  rw [segments_wrapping, Cursor.start, renderFrom_verb (o := o) (by decide) rfl]
  rfl

theorem wraps_wrapping : [0] <+: (render ("%w: " ++ template) (o :: operands)).wraps := by
  rw [render, renderFrom_wrapping]
  exact wraps_renderFrom (o :: operands) (Cursor.start.ahead [0]) (segments template)

/-- It is shown first. What comes after it is what the rest of the template shows of the other
operands, unless operands are named by their numbers. -/
theorem text_wrapping :
    ∃ rest, (render ("%w: " ++ template) (o :: operands)).text =
        String.ofList (o.show (Style.forVerb {} 'w') 'w') ++ ": " ++ rest ∧
      (Unindexed template → rest = (render template operands).text) := by
  rw [render, renderFrom_wrapping]
  refine ⟨String.ofList ((renderFrom (o :: operands) (Cursor.start.ahead [0])
    (segments template)).1 ++ extras (o :: operands) (renderFrom (o :: operands)
      (Cursor.start.ahead [0]) (segments template)).2), ?_, fun h => ?_⟩
  · apply String.ext
    simp
  · obtain ⟨wraps, hr⟩ := renderFrom_ahead o operands Cursor.start [0] h
    rw [hr, extras_ahead, render]

end Wrapping

end Crosscheck.Message
