import Mathlib.Logic.Relation
import Crosscheck.Watcher

namespace Crosscheck.Watcher

/-- One thing happens, to the watcher, to the one who stops it or to a timer of theirs. -/
inductive Step (title : String) : State → State → Prop
  | graceOver {s : State} (h : s.phase = .waiting) : Step title s { s with graceOver := true }
  | graceNoticed {s : State} (h : s.phase = .waiting) (hg : s.graceOver = true) :
      Step title s (s.attempt title)
  | returned {s : State} (a : Attempt) (h : s.phase = .trying) : Step title s (s.conclude a)
  | tick {s : State} (h : s.phase = .trying ∨ s.phase = .pausing) :
      Step title s { s with ticked := true }
  | tickNoticed {s : State} (h : s.phase = .pausing) (ht : s.ticked = true) :
      Step title s { s.attempt title with ticked := false }
  | stopAsked {s : State} (h : s.stopping = false) : Step title s { s with stopping := true }
  | stopNoticed {s : State} (h : s.stopping = true)
      (hp : s.phase = .waiting ∨ s.phase = .pausing) : Step title s { s with phase := .gone }
  | patienceOver {s : State} (h : s.stopping = true) :
      Step title s { s with patienceOver := true }
  | stopAwaited {s : State} (h : s.stopping = true) (hs : s.stopped = none)
      (hp : s.phase = .gone) : Step title s { s with stopped := some true }
  | stopGivenUp {s : State} (h : s.stopping = true) (hs : s.stopped = none)
      (hp : s.patienceOver = true) :
      Step title s { s with stopped := some false, entries := s.entries ++ [.lateStop] }

theorem step_of_step? {title : String} {s s' : State} {e : Event} (h : step? title s e = some s') :
    Step title s s' := by
  cases e <;> simp only [step?, Option.ite_none_right_eq_some, Option.ite_none_left_eq_some,
    Option.some.injEq, Bool.not_eq_true] at h <;> obtain ⟨hc, rfl⟩ := h
  case graceOver => exact .graceOver hc
  case graceNoticed => exact .graceNoticed hc.1 hc.2
  case returned a => exact .returned a hc
  case tick => exact .tick hc
  case tickNoticed => exact .tickNoticed hc.1 hc.2
  case stopAsked => exact .stopAsked hc
  case stopNoticed => exact .stopNoticed hc.1 hc.2
  case patienceOver => exact .patienceOver hc
  case stopAwaited => exact .stopAwaited hc.1 hc.2.1 hc.2.2
  case stopGivenUp => exact .stopGivenUp hc.1 hc.2.1 hc.2.2

theorem Step.exists_event {title : String} {s s' : State} (h : Step title s s') :
    ∃ e, step? title s e = some s' := by
  cases h with
  | graceOver h => exact ⟨.graceOver, if_pos h⟩
  | graceNoticed h hg => exact ⟨.graceNoticed, if_pos ⟨h, hg⟩⟩
  | returned a h => exact ⟨.returned a, if_pos h⟩
  | tick h => exact ⟨.tick, if_pos h⟩
  | tickNoticed h ht => exact ⟨.tickNoticed, if_pos ⟨h, ht⟩⟩
  | stopAsked h => exact ⟨.stopAsked, if_neg (by simp [h])⟩
  | stopNoticed h hp => exact ⟨.stopNoticed, if_pos ⟨h, hp⟩⟩
  | patienceOver h => exact ⟨.patienceOver, if_pos h⟩
  | stopAwaited h hs hp => exact ⟨.stopAwaited, if_pos ⟨h, hs, hp⟩⟩
  | stopGivenUp h hs hp => exact ⟨.stopGivenUp, if_pos ⟨h, hs, hp⟩⟩

abbrev Reaches (title : String) : State → State → Prop := Relation.ReflTransGen (Step title)

theorem reaches_iff_play {title : String} {s s' : State} :
    Reaches title s s' ↔ ∃ events, play title s events = s' := by
  constructor
  · intro h
    induction h using Relation.ReflTransGen.head_induction_on with
    | refl => exact ⟨[], rfl⟩
    | head hstep _ ih =>
      obtain ⟨e, he⟩ := hstep.exists_event
      obtain ⟨events, hplay⟩ := ih
      exact ⟨e :: events, by rw [play, he, Option.getD_some, hplay]⟩
  · rintro ⟨events, rfl⟩
    induction events generalizing s with
    | nil => exact .refl
    | cons e rest ih =>
      rw [play]
      cases he : step? title s e with
      | none => exact ih
      | some s₁ => exact .head (step_of_step? he) ih

/-- What is known of a watcher whose calls came to these results so far. -/
structure Kept (title : String) (done : List Attempt) (s : State) : Prop where
  calls : s.calls =
    done.map (⟨title, some ·⟩) ++ if s.phase = .trying then [⟨title, none⟩] else []
  grace : s.graceOver = false → done = [] ∧ (s.phase = .waiting ∨ s.phase = .gone)
  gone : s.phase = .gone → s.stopping = true
  stopped : s.stopped = some true → s.phase = .gone
  told : s.entries.filter (· ≠ .lateStop) = done.filterMap entryOf
  warned : s.entries.count .lateStop = if s.stopped = some false then 1 else 0

theorem Kept.start (title : String) : Kept title [] {} where
  calls := rfl
  grace _ := ⟨rfl, .inl rfl⟩
  gone := nofun
  stopped := nofun
  told := rfl
  warned := rfl

theorem entryOf_ne_lateStop {a : Attempt} {e : Entry} (h : entryOf a = some e) : e ≠ .lateStop := by
  rintro rfl
  rw [entryOf] at h
  split at h
  · cases h
  · split at h <;> cases h

section Steps

variable {title : String} {done : List Attempt} {s : State}

theorem ne_trying (hp : s.phase = .waiting ∨ s.phase = .pausing) : s.phase ≠ .trying := by
  intro ht
  rw [ht] at hp
  simp at hp

theorem Kept.calls_of_idle (h : Kept title done s) (hp : s.phase ≠ .trying) :
    s.calls = done.map (⟨title, some ·⟩) := by
  have hcalls := h.calls
  rwa [if_neg hp, List.append_nil] at hcalls

theorem Kept.attempt (h : Kept title done s) (hp : s.phase = .waiting ∨ s.phase = .pausing)
    (hg : s.graceOver = true) : Kept title done (s.attempt title) where
  calls := by
    rw [State.attempt, h.calls_of_idle (ne_trying hp)]
    rfl
  grace hf := by
    rw [show (s.attempt title).graceOver = s.graceOver from rfl, hg] at hf
    cases hf
  gone := nofun
  stopped hs := by
    have hgone := h.stopped hs
    rw [hgone] at hp
    simp at hp
  told := h.told
  warned := h.warned

theorem Kept.conclude (h : Kept title done s) (hp : s.phase = .trying) (a : Attempt) :
    Kept title (done ++ [a]) (s.conclude a) where
  calls := by
    have hcalls := h.calls
    rw [if_pos hp] at hcalls
    simp [State.conclude, hcalls]
  grace hf := by
    have hw := (h.grace hf).2
    rw [hp] at hw
    simp at hw
  gone := nofun
  stopped hs := by
    have hgone := h.stopped hs
    rw [hp] at hgone
    cases hgone
  told := by
    have hentry : (entryOf a).toList.filter (· ≠ .lateStop) = (entryOf a).toList := by
      rw [List.filter_eq_self]
      intro e he
      simpa using entryOf_ne_lateStop (Option.mem_toList.mp he)
    rw [State.conclude, List.filter_append, h.told, hentry, List.filterMap_append]
    cases ha : entryOf a <;> simp [ha]
  warned := by
    have hentry : (entryOf a).toList.count .lateStop = 0 := by
      rw [List.count_eq_zero]
      intro he
      exact entryOf_ne_lateStop (Option.mem_toList.mp he) rfl
    rw [State.conclude, List.count_append, hentry, Nat.add_zero]
    exact h.warned

/-- What is known of a watcher is known after whatever happens next. -/
theorem Kept.step {s' : State} (h : Kept title done s) (hstep : Step title s s') :
    ∃ done', Kept title done' s' := by
  cases hstep with
  | graceOver hp => exact ⟨done, { h with grace := nofun }⟩
  | graceNoticed hp hg => exact ⟨done, h.attempt (.inl hp) hg⟩
  | returned a hp => exact ⟨done ++ [a], h.conclude hp a⟩
  | tick hp => exact ⟨done, { h with }⟩
  | tickNoticed hp ht =>
    have hg : s.graceOver = true := by
      rw [← Bool.not_eq_false]
      intro hf
      have hw := (h.grace hf).2
      rw [hp] at hw
      simp at hw
    exact ⟨done, { h.attempt (.inr hp) hg with }⟩
  | stopAsked hs => exact ⟨done, { h with gone := fun _ => rfl }⟩
  | stopNoticed hs hp =>
    exact ⟨done, { h with
      calls := (h.calls_of_idle (ne_trying hp)).trans (List.append_nil _).symm
      grace := fun hf => ⟨(h.grace hf).1, .inr rfl⟩
      gone := fun _ => hs
      stopped := fun _ => rfl }⟩
  | patienceOver hs => exact ⟨done, { h with }⟩
  | stopAwaited hs hnone hp =>
    refine ⟨done, { h with stopped := fun _ => hp, warned := ?_ }⟩
    simpa [hnone] using h.warned
  | stopGivenUp hs hnone hp =>
    refine ⟨done, { h with stopped := nofun, told := ?_, warned := ?_ }⟩
    · simpa using h.told
    · simpa [hnone, List.count_append] using h.warned

theorem Reaches.kept (h : Reaches title {} s) : ∃ done, Kept title done s := by
  induction h with
  | refl => exact ⟨[], .start title⟩
  | tail _ hstep ih =>
    obtain ⟨done, hkept⟩ := ih
    exact hkept.step hstep

end Steps

/-- A watcher that is gone stays away and makes no more calls. -/
theorem Reaches.calls_of_gone {title : String} {s s' : State} (hp : s.phase = .gone)
    (h : Reaches title s s') : s'.phase = .gone ∧ s'.calls = s.calls := by
  induction h with
  | refl => exact ⟨hp, rfl⟩
  | tail _ hstep ih =>
    obtain ⟨hgone, hcalls⟩ := ih
    cases hstep with
    | graceOver h | graceNoticed h _ | returned _ h | tickNoticed h _ =>
      rw [hgone] at h
      cases h
    | tick h =>
      rw [hgone] at h
      simp at h
    | stopNoticed _ _ => exact ⟨rfl, hcalls⟩
    | stopAsked _ | patienceOver _ | stopAwaited _ _ _ | stopGivenUp _ _ _ => exact ⟨hgone, hcalls⟩

theorem reaches_attempt {title : String} {s : State} (hp : s.phase = .pausing) :
    ∃ s', Reaches title s s' ∧ s'.calls = s.calls ++ [⟨title, none⟩] := by
  have htick : Step title s { s with ticked := true } := .tick (.inr hp)
  exact ⟨_, .tail (.single htick) (.tickNoticed hp rfl), rfl⟩

def State.records (s : State) (title : String) (patience : Duration) : List Log.Record :=
  s.entries.map (·.record title patience)

def noteOn (title : String) (a : Attempt) : Option Log.Record :=
  match a.error, a.found with
  | some e, _ =>
    some { level := .debug, message := "window dismissal failed"
           attrs := [⟨"title", .text title⟩, ⟨"error", .error e⟩] }
  | none, true =>
    some { level := .debug, message := "window close requested", attrs := [⟨"title", .text title⟩] }
  | none, false => none

def warning (title : String) (patience : Duration) : Log.Record where
  level := .warn
  message := "window watcher did not stop in time"
  attrs := [⟨"title", .text title⟩, ⟨"timeout", .duration patience⟩]

theorem level_record (title : String) (patience : Duration) (e : Entry) :
    (e.record title patience).level = .debug ↔ e ≠ .lateStop := by
  cases e <;> simp [Entry.record, Log.Level.debug, Log.Level.warn]

theorem record_entryOf (title : String) (patience : Duration) (a : Attempt) :
    (entryOf a).map (·.record title patience) = noteOn title a := by
  obtain ⟨found, error⟩ := a
  cases error <;> cases found <;> rfl

/-- What is promised of a watcher and of the one who stops it: no call is begun before the wait is
over, one call at most is under way, all are made with the one title, the watcher goes only if it is
asked to and otherwise goes on after a pause, and once it has been seen to be gone no call is under
way and none is begun. The log has a note on each call that is over, in their order, and a warning
if the watcher was not awaited. -/
structure Safe (title : String) (patience : Duration) (s : State) : Prop where
  grace : s.graceOver = false → s.calls = []
  single : s.calls.countP (·.result.isNone) ≤ 1
  titled : ∀ c ∈ s.calls, c.title = title
  asked : s.phase = .gone → s.stopping = true
  goesOn : s.phase = .pausing → ∃ s', Reaches title s s' ∧ s'.calls = s.calls ++ [⟨title, none⟩]
  ended : s.stopped = some true → ∀ c ∈ s.calls, c.result.isSome = true
  final : s.stopped = some true → ∀ s', Reaches title s s' → s'.calls = s.calls
  noted : (s.records title patience).filter (·.level = .debug) =
    (s.calls.filterMap (·.result)).filterMap (noteOn title)
  warned : (s.records title patience).filter (·.level ≠ .debug) =
    if s.stopped = some false then [warning title patience] else []

namespace Kept

variable {title : String} {done : List Attempt} {s : State} (h : Kept title done s)

include h

theorem calls_of_grace (hg : s.graceOver = false) : s.calls = [] := by
  obtain ⟨rfl, hp⟩ := h.grace hg
  apply h.calls_of_idle
  intro ht
  rw [ht] at hp
  simp at hp

theorem mem_calls {c : Call} (hc : c ∈ s.calls) :
    (∃ a ∈ done, c = ⟨title, some a⟩) ∨ s.phase = .trying ∧ c = ⟨title, none⟩ := by
  rw [h.calls, List.mem_append] at hc
  cases hc with
  | inl hover =>
    obtain ⟨a, ha, rfl⟩ := List.mem_map.mp hover
    exact .inl ⟨a, ha, rfl⟩
  | inr hlast =>
    split at hlast
    · rename_i hp
      exact .inr ⟨hp, List.mem_singleton.mp hlast⟩
    · cases hlast

theorem results : s.calls.filterMap (·.result) = done := by
  have hover : (done.map (Call.mk title ∘ some)).filterMap (·.result) = done := by
    rw [List.filterMap_map]
    exact List.filterMap_some
  rw [h.calls, List.filterMap_append]
  refine (congrArg (· ++ _) hover).trans ?_
  split <;> simp

theorem single : s.calls.countP (·.result.isNone) ≤ 1 := by
  rw [h.calls]
  split <;> simp [List.countP_map, Function.comp_def]

theorem noted (patience : Duration) : (s.records title patience).filter (·.level = .debug) =
    (s.calls.filterMap (·.result)).filterMap (noteOn title) := by
  simp only [State.records, List.filter_map, Function.comp_def, level_record, h.results]
  rw [h.told, List.map_filterMap]
  simp only [record_entryOf]

theorem warned_records (patience : Duration) :
    (s.records title patience).filter (·.level ≠ .debug) =
      if s.stopped = some false then [warning title patience] else [] := by
  have hlate : s.entries.filter (· = .lateStop) =
      List.replicate (if s.stopped = some false then 1 else 0) .lateStop := by
    rw [← h.warned, ← List.filter_eq]
  have hhigh (e : Entry) : (e.record title patience).level ≠ .debug ↔ e = .lateStop := by
    rw [Ne, level_record, Decidable.not_not]
  simp only [State.records, List.filter_map, Function.comp_def, hhigh, hlate]
  split <;> rfl

end Kept

/-- Whatever happens to a watcher and to the one who stops it, and in whatever order, all that is
promised of them holds. -/
theorem reaches_safe {title : String} {s : State} (h : Reaches title {} s) (patience : Duration) :
    Safe title patience s := by
  obtain ⟨done, hkept⟩ := Reaches.kept h
  refine
    { grace := hkept.calls_of_grace
      single := hkept.single
      titled := ?_
      asked := hkept.gone
      goesOn := reaches_attempt
      ended := ?_
      final := ?_
      noted := hkept.noted patience
      warned := hkept.warned_records patience }
  · intro c hc
    obtain ⟨a, _, rfl⟩ | ⟨_, rfl⟩ := hkept.mem_calls hc <;> rfl
  · intro hs c hc
    obtain ⟨a, _, rfl⟩ | ⟨hp, _⟩ := hkept.mem_calls hc
    · rfl
    · rw [hkept.stopped hs] at hp
      cases hp
  · intro hs s' hs'
    exact (hs'.calls_of_gone (hkept.stopped hs)).2

/-- A watcher whose first call fails although it finds a window, and that is given up in its third. -/
def sampleEvents : List Event :=
  eventsUntilStop [⟨true, some "denied"⟩, ⟨true, none⟩] true ++ [.returned ⟨false, none⟩]

theorem reaches_safe_sample :
    (play "Assembler" {} sampleEvents).stopped = some false ∧
      (play "Assembler" {} sampleEvents).calls.map (·.result) =
        [some ⟨true, some "denied"⟩, some ⟨true, none⟩, some ⟨false, none⟩] ∧
      Safe "Assembler" (.ofNat Duration.second) (play "Assembler" {} sampleEvents) :=
  ⟨by decide, by decide,
    reaches_safe (reaches_iff_play.mpr ⟨sampleEvents, rfl⟩) (.ofNat Duration.second)⟩

end Crosscheck.Watcher
