import Crosscheck.Proofs.Cli.Command
import Crosscheck.Proofs.Corpus

namespace Crosscheck

theorem Path.ext_of_no_dot {p : String} (h : '.' ∉ p.toList) : Path.ext p = "" := by
  have hlast : '.' ∉ lastPart p.toList := by
    intro hdot
    rw [lastPart, List.mem_reverse] at hdot
    exact h (List.mem_reverse.mp ((List.takeWhile_sublist _).subset hdot))
  rw [ext, extOf, if_neg (by simpa using hlast)]

theorem Path.trimEnd_empty (p : String) : Path.trimEnd p "" = p := by
  simp [trimEnd]

namespace Cli

/-- The arguments that ask for a comparison of three words. Two hyphens before them allow for words
that look like flags. -/
inductive Compares (dir₁ dir₂ word : String) : List String → Prop
  | bare (h : ∀ w ∈ [dir₁, dir₂, word], isFlag w = false) :
      Compares dir₁ dir₂ word ["tools", "compare", dir₁, dir₂, word]
  | marked : Compares dir₁ dir₂ word ["tools", "compare", "--", dir₁, dir₂, word]

theorem Compares.run (launch : Program.Launch) {call : Call} {dir₁ dir₂ word : String}
    (h : Compares dir₁ dir₂ word call.args) {fs : FileSystem} {s : Settings.Store} {note : String}
    (hs : settingsOf call {} fs = .ok (s, note)) :
    run launch call fs = (compareCase dir₁ dir₂ word s fs).noted note := by
  generalize hargs : call.args = args at h
  cases h with
  | bare hw =>
    have hfind := find_compare [dir₁, dir₂, word]
    rw [← hargs] at hfind
    exact Asks.run launch ⟨⟨_, hfind, readFlags_words _ _ hw []⟩, rfl, rfl⟩ hs
  | marked =>
    have hfind := find_compare ["--", dir₁, dir₂, word]
    rw [← hargs] at hfind
    exact Asks.run launch ⟨⟨_, hfind, readFlags_hyphens _ _ [] _⟩, rfl, rfl⟩ hs

/-- The words that name a case of a corpus: its name, and the base of it unless there is a dot left
in it. -/
def Names (test : TestCase) (word : String) : Prop :=
  word = test.name ∨ word = test.base ∧ '.' ∉ test.base.toList

theorem Names.trimEnd {fs : FileSystem} {dir ext word : String} {cases : List TestCase}
    (hd : Corpus.discover fs dir ext = .ok cases) {test : TestCase} (ht : test ∈ cases)
    (h : Names test word) : Path.trimEnd word (Path.ext word) = test.base := by
  obtain ⟨_, name, _, rfl, _, hext, _⟩ := Corpus.mem_discover hd ht
  cases h with
  | inl h =>
    rw [h]
    change Path.trimEnd name (Path.ext name) = Path.trimEnd name ext
    rw [hext]
  | inr h =>
    obtain ⟨rfl, hdot⟩ := h
    rw [Path.ext_of_no_dot hdot, Path.trimEnd_empty]

/-- Comparing a case of the corpus by hand agrees with what a session finds: the call succeeds and
says so exactly if the artifacts of the case are the same, and else fails without an error of its
own. -/
theorem compare_agrees (launch : Program.Launch) {call : Call} {fs : FileSystem}
    {dir ext : String} {cases : List TestCase} (hd : Corpus.discover fs dir ext = .ok cases)
    {test : TestCase} (ht : test ∈ cases) {dir₁ dir₂ word : String} (hw : Names test word)
    (hargs : Compares dir₁ dir₂ word call.args) :
    ∃ s note, settingsOf call {} fs = .ok (s, note) ∧
      let file := test.base ++ s.getText "artifact.extension"
      let same := Artifact.same fs dir₁ dir₂ test.base (s.getText "artifact.extension")
      (((run launch call fs).exit = 0 ∧ (run launch call fs).stdout = " OK " ++ file ++ "\n") ↔
        same = true) ∧
      (same = false → run launch call fs = ⟨1, " X " ++ file ++ "\n", note, fs⟩) := by
  obtain ⟨s, note, hs⟩ := settingsOf_unnamed call {} rfl fs
  refine ⟨s, note, hs, ?_⟩
  have hrun := hargs.run launch hs
  simp only [compareCase, hw.trimEnd hd ht] at hrun
  dsimp only
  cases hsame : Artifact.same fs dir₁ dir₂ test.base (s.getText "artifact.extension") with
  | true =>
    rw [hsame, if_pos rfl] at hrun
    simp [hrun, Outcome.noted, Outcome.success, String.append_assoc]
  | false =>
    rw [hsame, if_neg (by decide)] at hrun
    simp [hrun, Outcome.noted, String.append_assoc]

/-- A corpus with a dot in the name of its only case, and the artifacts of two tools for it. -/
def collectedFiles : FileSystem where
  nodes := [([], .dir 0o755), (["c"], .dir 0o755), (["c", "a.b.asm"], .file 0 0o644 "nop".toUTF8),
    (["d"], .dir 0o755), (["d", "a.b.hex"], .file 1 0o644 "00".toUTF8),
    (["e"], .dir 0o755), (["e", "a.b.hex"], .file 2 0o644 "00".toUTF8)]
  nextId := 3
  cwd := []
  mounts := []
  privileged := false

def dottedCase : TestCase := ⟨"a.b.asm", "a.b", "/c/a.b.asm"⟩

def compareCall (word : String) : Call where
  args := ["tools", "compare", "/d", "/e", word]
  env := []
  exeDir := .ok "/x"
  tty := false
  sessionId := ""

def compared (word : String) : Outcome :=
  run (fun fs _ => { fs, ending := .clean }) (compareCall word) collectedFiles

theorem compare_agrees_sample :
    Corpus.discover collectedFiles "/c" ".asm" = .ok [dottedCase] ∧ Names dottedCase "a.b.asm" ∧
      Compares "/d" "/e" "a.b.asm" (compareCall "a.b.asm").args ∧
      (compared "a.b.asm").exit = 0 ∧ (compared "a.b.asm").stdout = " OK a.b.hex\n" := by
  have hd : Corpus.discover collectedFiles "/c" ".asm" = .ok [dottedCase] := by decide +kernel
  have hw : Names dottedCase "a.b.asm" := .inl rfl
  have hargs : Compares "/d" "/e" "a.b.asm" (compareCall "a.b.asm").args := .bare (by decide)
  obtain ⟨s, note, hs, hok, _⟩ :=
    compare_agrees (fun fs _ => { fs, ending := .clean }) hd List.mem_cons_self hw hargs
  have hext : (settingsOf (compareCall "a.b.asm") {} collectedFiles).toOption.map
      (fun r => r.1.getText "artifact.extension") = some ".hex" := by decide +kernel
  simp only [hs, Except.toOption, Option.map_some, Option.some.injEq] at hext
  rw [hext] at hok
  exact ⟨hd, hw, hargs, hok.mpr (by decide +kernel)⟩

/-- The base of a case is not taken for the case if there is a dot in it: the artifacts are the
same, and yet their comparison fails. -/
theorem compare_misses_dotted :
    Corpus.discover collectedFiles "/c" ".asm" = .ok [dottedCase] ∧
      Artifact.same collectedFiles "/d" "/e" dottedCase.base ".hex" = true ∧
      (compared dottedCase.base).exit = 1 ∧ (compared dottedCase.base).stdout = " X a.hex\n" := by
  decide +kernel

end Cli

end Crosscheck
