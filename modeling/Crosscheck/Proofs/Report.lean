import Mathlib.Data.List.Basic
import Crosscheck.Proofs.Log
import Crosscheck.Report

namespace Crosscheck

namespace Report

variable {ε : Type} (r : Report ε)

theorem passed_add_failures : r.passed + r.failures.length = r.total := by
  rw [passed, failures, total, ← List.countP_eq_length_filter]
  simpa using (List.length_eq_countP_add_countP (·.passed) (l := r.cases)).symm

theorem total_eq_passed_iff : r.total = r.passed ↔ ∀ c ∈ r.cases, c.passed = true := by
  rw [total, passed, eq_comm, List.countP_eq_length]

theorem exitCode_eq_zero_iff : r.exitCode = 0 ↔ ∀ c ∈ r.cases, c.passed = true := by
  rw [← r.total_eq_passed_iff, exitCode, allPassed]
  simp [eq_comm]

theorem failures_eq_nil_iff : r.failures = [] ↔ ∀ c ∈ r.cases, c.passed = true := by
  simp [failures]

def verdicts : List (String × Bool) := r.cases.map fun c => (c.case.name, c.passed)

theorem length_verdicts : r.verdicts.length = r.total := List.length_map _

theorem countP_verdicts : r.verdicts.countP (·.2) = r.passed := by
  rw [verdicts, List.countP_map]
  rfl

def OneLined : Prop := ∀ c ∈ r.cases, '\n' ∉ c.case.name.toList

instance : Decidable r.OneLined := inferInstanceAs (Decidable (∀ c ∈ r.cases, _))

end Report

namespace Console

def splitLines (s : String) : List (List Char) := s.toList.splitOn '\n'

theorem splitLines_ended {ls : List (List Char)} (h : ∀ l ∈ ls, '\n' ∉ l) :
    splitLines (String.ofList (ls.flatMap (· ++ ['\n']))) = ls ++ [[]] := by
  rw [splitLines, String.toList_ofList]
  induction ls with
  | nil => rfl
  | cons l more ih =>
    have hmore := ih fun k hk => h k (List.mem_cons_of_mem l hk)
    rw [List.flatMap_cons, List.append_assoc, List.singleton_append, List.splitOn_append_cons_self,
      List.splitOn_eq_singleton (h l List.mem_cons_self), hmore, List.singleton_append,
      List.cons_append]

def dropEscape : List Char → List Char
  | '\x1b' :: rest => (rest.dropWhile (· != 'm')).tail
  | cs => cs

/-- A line without the escape sequences around its marker, which follows on a blank. -/
def plainLine : List Char → List Char
  -- Others are left where they are, for they can be part of a name.
  | ' ' :: '\x1b' :: rest =>
    let marked := dropEscape ('\x1b' :: rest)
    ' ' :: marked.takeWhile (· != '\x1b') ++ dropEscape (marked.dropWhile (· != '\x1b'))
  | line => line

def plain (s : String) : String := String.ofList (['\n'].intercalate ((splitLines s).map plainLine))

/-- The name of the case that a line is about, and whether it passed. Such a line has a blank, a
marker and another blank in front of the name. -/
def verdict? (line : List Char) : Option (String × Bool) :=
  match (plainLine line).dropPrefix? " OK ".toList with
  | some name => some (String.ofList name, true)
  | none => ((plainLine line).dropPrefix? " X ".toList).map fun name => (String.ofList name, false)

def isCaseLine (line : List Char) : Bool := (verdict? line).isSome

def isOkLine (line : List Char) : Bool := (verdict? line).any (·.2)

def numbers? (line : List Char) : Option (Nat × Nat) :=
  match line.dropPrefix? "Passed: ".toList with
  | none => none
  | some rest =>
    match rest.splitOn '/' with
    | [passed, total] =>
      (Text.value? 10 passed).bind fun m => (Text.value? 10 total).map fun n => (m, n)
    | _ => none

def tally? (s : String) : Option (Nat × Nat) := (splitLines s).dropLast.getLast?.bind numbers?

section Line

variable {ε : Type}

def shownLine (tty : Bool) (c : CaseResult ε) : String :=
  " " ++ marker tty c.passed ++ " " ++ c.case.name

theorem newline_shownLine (tty : Bool) {c : CaseResult ε} (h : '\n' ∉ c.case.name.toList) :
    '\n' ∉ (shownLine tty c).toList := by
  have hmarker : '\n' ∉ (marker tty c.passed).toList := by
    cases tty <;> cases c.passed <;> decide
  simp [shownLine, hmarker, h]

theorem plainLine_shownLine (tty : Bool) (c : CaseResult ε) :
    plainLine (shownLine tty c).toList = (shownLine false c).toList := by
  cases tty <;> cases hc : c.passed <;> simp [shownLine, marker, hc, plainLine, dropEscape]

theorem verdict?_shownLine (tty : Bool) (c : CaseResult ε) :
    verdict? (shownLine tty c).toList = some (c.case.name, c.passed) := by
  rw [verdict?, plainLine_shownLine]
  cases hc : c.passed <;> simp [shownLine, marker, hc, List.dropPrefix?]

end Line

section Text

variable {ε : Type} {r : Report ε} (tty : Bool)

def tallyLine (r : Report ε) : String := "Passed: " ++ decimal r.passed ++ "/" ++ decimal r.total

theorem newline_tallyLine (r : Report ε) : '\n' ∉ (tallyLine r).toList := by
  have hdigits (n : Nat) : '\n' ∉ Nat.toDigits 10 n := Text.newline_toDigits (by decide) n
  simp [tallyLine, decimal, hdigits]

theorem numbers?_tallyLine (r : Report ε) :
    numbers? (tallyLine r).toList = some (r.passed, r.total) := by
  have hslash (n : Nat) : '/' ∉ Nat.toDigits 10 n := by
    intro hmem
    exact absurd (Text.isDigit_toDigits '/' hmem) (by decide)
  have hline : (tallyLine r).toList =
      "Passed: ".toList ++ (Nat.toDigits 10 r.passed ++ '/' :: Nat.toDigits 10 r.total) := by
    simp [tallyLine, decimal]
  rw [numbers?, hline, List.dropPrefix?_append_of_beq _ (BEq.rfl)]
  dsimp only
  rw [List.splitOn_append_cons_self, List.splitOn_eq_singleton (hslash _),
    List.splitOn_eq_singleton (hslash _), List.singleton_append]
  simp [Text.value?_toDigits]

def shown (tty : Bool) (r : Report ε) : List (List Char) :=
  "Running tests".toList ::
    (r.cases.map (fun c => (shownLine tty c).toList) ++ [[], (tallyLine r).toList])

theorem text_eq (r : Report ε) :
    text tty r = String.ofList ((shown tty r).flatMap (· ++ ['\n'])) := by
  apply String.toList_inj.mp
  simp [text, started, sessionFinished, finished, shown, tallyLine, String.toList_join,
    List.flatMap_map, caseFinished, caseLine, shownLine]

theorem splitLines_text (hr : r.OneLined) : splitLines (text tty r) = shown tty r ++ [[]] := by
  rw [text_eq]
  apply splitLines_ended
  intro l hl
  simp only [shown, List.mem_cons, List.mem_append, List.mem_map, List.not_mem_nil, or_false] at hl
  rcases hl with rfl | ⟨c, hc, rfl⟩ | rfl | rfl
  · decide
  · exact newline_shownLine tty (hr c hc)
  · exact List.not_mem_nil
  · exact newline_tallyLine r

theorem plainLine_tallyLine (r : Report ε) : plainLine (tallyLine r).toList = (tallyLine r).toList := by
  simp [tallyLine, plainLine]

theorem map_plainLine_shown (r : Report ε) : (shown tty r).map plainLine = shown false r := by
  have hcases : (r.cases.map fun c => (shownLine tty c).toList).map plainLine =
      r.cases.map fun c => (shownLine false c).toList := by
    rw [List.map_map]
    exact List.map_congr_left fun c _ => plainLine_shownLine tty c
  rw [shown, List.map_cons, List.map_append, hcases, List.map_cons, List.map_singleton,
    plainLine_tallyLine]
  rfl

theorem filterMap_verdict?_shown (r : Report ε) : (shown tty r).filterMap verdict? = r.verdicts := by
  have hcases : (r.cases.map fun c => (shownLine tty c).toList).filterMap verdict? = r.verdicts := by
    rw [List.filterMap_map, Report.verdicts, ← List.filterMap_eq_map]
    exact List.filterMap_congr fun c _ => verdict?_shownLine tty c
  have htally : verdict? (tallyLine r).toList = none := by
    rw [verdict?, plainLine_tallyLine]
    simp [tallyLine, List.dropPrefix?]
  have hfirst : verdict? "Running tests".toList = none := by decide
  have hblank : verdict? [] = none := by decide
  rw [shown, List.filterMap_cons_none hfirst, List.filterMap_append, hcases,
    List.filterMap_cons_none hblank, List.filterMap_cons_none htally, List.filterMap_nil,
    List.append_nil]

variable (hr : r.OneLined)

include hr

theorem filterMap_verdict?_text : (splitLines (text tty r)).filterMap verdict? = r.verdicts := by
  have hend : [([] : List Char)].filterMap verdict? = [] := by decide
  rw [splitLines_text tty hr, List.filterMap_append, filterMap_verdict?_shown, hend, List.append_nil]

theorem countP_isCaseLine_text : (splitLines (text tty r)).countP isCaseLine = r.total := by
  rw [← r.length_verdicts, ← filterMap_verdict?_text tty hr, List.length_filterMap_eq_countP]
  rfl

theorem countP_isOkLine_text : (splitLines (text tty r)).countP isOkLine = r.passed := by
  rw [← r.countP_verdicts, ← filterMap_verdict?_text tty hr, List.countP_filterMap]
  apply List.countP_congr
  intro line _
  cases hline : verdict? line <;> simp [isOkLine, hline]

theorem tally?_text : tally? (text tty r) = some (r.passed, r.total) := by
  have hlast : (shown tty r).getLast? = some (tallyLine r).toList := by
    rw [shown, ← List.cons_append, List.getLast?_append_of_ne_nil _ (by simp)]
    rfl
  rw [tally?, splitLines_text tty hr, List.dropLast_concat, hlast, Option.bind_some,
    numbers?_tallyLine]

theorem plain_text : plain (text tty r) = text false r := by
  have hlines : (splitLines (text tty r)).map plainLine = splitLines (text false r) := by
    rw [splitLines_text tty hr, splitLines_text false hr, List.map_append, map_plainLine_shown]
    rfl
  rw [plain, hlines, splitLines, List.intercalate_splitOn, String.ofList_toList]

end Text

/-- What is shown on a console tells which cases there were, in which order, and which of them
passed. Its last line gives the numbers of the lines that say so, and these are equal exactly if the
status of the session is zero, which is if no case failed. A terminal shows the same, but for the
colours. -/
theorem text_faithful {ε : Type} {r : Report ε} (hr : r.OneLined) :
    (∀ tty tty' (r' : Report ε), r'.OneLined → text tty r = text tty' r' →
      r.verdicts = r'.verdicts) ∧
    (∀ tty, ∃ a b, tally? (text tty r) = some (a, b) ∧
      a = (splitLines (text tty r)).countP isOkLine ∧
      b = (splitLines (text tty r)).countP isCaseLine ∧
      (b = a ↔ r.exitCode = 0) ∧ (r.exitCode = 0 ↔ r.failures = [])) ∧
    r.passed + r.failures.length = r.total ∧
    plain (text true r) = text false r := by
  refine ⟨fun tty tty' r' hr' heq => ?_, fun tty => ?_, r.passed_add_failures, plain_text true hr⟩
  · rw [← filterMap_verdict?_text tty hr, heq, filterMap_verdict?_text tty' hr']
  · refine ⟨r.passed, r.total, tally?_text tty hr, (countP_isOkLine_text tty hr).symm,
      (countP_isCaseLine_text tty hr).symm, ?_, ?_⟩
    · rw [r.total_eq_passed_iff, r.exitCode_eq_zero_iff]
    · rw [r.exitCode_eq_zero_iff, r.failures_eq_nil_iff]

def misleading (dir : String) : Report Empty where
  cases :=
    [{ case := ⟨"X OK 1/1", "X OK 1/1", dir⟩, runs := [], passed := true },
      { case := ⟨"\x1b[32;1mOK\x1b[0;22m", "\x1b[32;1mOK\x1b[0;22m", dir⟩, runs := [] },
      { case := ⟨"Passed: 3/3", "Passed: 3/3", dir⟩, runs := [] }]

theorem text_faithful_misleading :
    (misleading "/a").OneLined ∧ (misleading "/b").OneLined ∧
    text true (misleading "/a") = text true (misleading "/b") ∧
    (misleading "/a").verdicts = (misleading "/b").verdicts ∧
    (∃ a b, tally? (text true (misleading "/a")) = some (a, b) ∧
      a = (splitLines (text true (misleading "/a"))).countP isOkLine ∧
      b = (splitLines (text true (misleading "/a"))).countP isCaseLine ∧
      (b = a ↔ (misleading "/a").exitCode = 0) ∧
      ((misleading "/a").exitCode = 0 ↔ (misleading "/a").failures = [])) ∧
    (misleading "/a").passed + (misleading "/a").failures.length = (misleading "/a").total ∧
    plain (text true (misleading "/a")) = text false (misleading "/a") := by
  have ha : (misleading "/a").OneLined := by decide
  have hb : (misleading "/b").OneLined := by decide
  have htext : text true (misleading "/a") = text true (misleading "/b") := rfl
  obtain ⟨hverdicts, htally, hsum, hplain⟩ := text_faithful ha
  exact ⟨ha, hb, htext, hverdicts _ _ _ hb htext, htally true, hsum, hplain⟩

end Console

end Crosscheck
