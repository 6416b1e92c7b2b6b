import Crosscheck.Proofs.FileSystem.Visits
import Crosscheck.Proofs.Runner.Endings

namespace Crosscheck

namespace FileSystem

variable {fs fs' : FileSystem} {x d : Location} {p s : String}

theorem erase_of_get?_none (h : fs.get? x = none) : fs.erase x = fs := by
  have hnodes : (fs.nodes.filter fun e => e.1 ≠ x) = fs.nodes := by
    rw [List.filter_eq_self]
    intro e he
    rw [decide_eq_true_iff]
    rintro rfl
    have hsome := (get?_isSome_iff fs e.1).mpr (List.mem_map_of_mem he)
    rw [h] at hsome
    cases hsome
  rw [erase, hnodes]

theorem erase_appendTo (fs : FileSystem) (x : Location) (id : Nat) (bytes : ByteArray) :
    (fs.appendTo id bytes).erase x = (fs.erase x).appendTo id bytes := by
  rw [appendTo, appendTo, update, update, erase, erase, List.filter_map]
  rfl

theorem terms_of_erase_eq (h : fs'.erase x = fs.erase x) : fs'.terms = fs.terms := by
  rw [← terms_erase fs' x, h, terms_erase]

theorem get?_of_erase_eq (h : fs'.erase x = fs.erase x) {l : Location} (hl : l ≠ x) :
    fs'.get? l = fs.get? l := by
  have hg := get?_erase fs' x l
  rwa [h, get?_erase, if_neg hl, if_neg hl, eq_comm] at hg

/-- A path names a place that can be cleared: nothing stands there, or something that its directory
allows to be removed, and no directory with something in it. -/
structure Clearable (fs : FileSystem) (p : String) (d : Location) (s : String) : Prop where
  entry : fs.entry p = .ok ⟨d, .name s, false⟩
  change : (fs.get? (d ++ [s])).isSome = true → fs.mayChange d = true
  empty : fs.Only (d ++ [s]) fun n => n.isDir = true → fs.isEmptyDir (d ++ [s]) = true

theorem Clearable.removeStale (h : fs.Clearable p d s) :
    Runner.removeStale fs p = .ok (fs.erase (d ++ [s])) := by
  rw [Runner.removeStale, remove_of_entry h.entry]
  cases hg : fs.get? (d ++ [s]) with
  | none =>
    rw [erase_of_get?_none hg]
    rfl
  | some n =>
    have hc : fs.mayChange d = true := h.change (by rw [hg]; rfl)
    have hfull : ¬ (n.isDir = true ∧ fs.isEmptyDir (d ++ [s]) = false) := by
      rintro ⟨hd, hempty⟩
      rw [h.empty n hg hd] at hempty
      cases hempty
    simp only [hc, Bool.true_eq_false, if_false, hfull]

end FileSystem

open FileSystem

def World.without (x : Location) (w : World) : World := { w with fs := w.fs.erase x }

theorem Logged.agree {logger : Log.Logger} {fs fs' : FileSystem} (h : Logged logger fs fs')
    (x : Location) : fs.Agree fs' x := by
  obtain rfl | ⟨id, bytes, _, rfl⟩ := h
  · rfl
  · rw [Agree, get?_appendTo, Option.map_map]
    congr 1
    funext n
    exact Node.outline_updated n id _

theorem Logged.retains {logger : Log.Logger} {fs fs' : FileSystem} (h : Logged logger fs fs') :
    Retains fs fs' ∧ Retains fs' fs :=
  ⟨⟨h.terms, fun x _ _ => h.agree x⟩, ⟨h.terms.symm, fun x _ _ => (h.agree x).symm⟩⟩

theorem log_without (l : Log.Logger) (x : Location) (w : World) (r : Log.Record) :
    (l.log w r).without x = l.log (w.without x) r := by
  have hw : ∀ b : Bool, (if b then w.noteLine (l.record r).textLine else w).without x =
      if b then (w.without x).noteLine (l.record r).textLine else w.without x := by
    intro b
    cases b <;> rfl
  rw [Log.Logger.log, Log.Logger.log, ← hw]
  split
  · split
    · rw [World.without]
      dsimp only
      rw [erase_appendTo]
      rfl
    · rfl
  · rfl

namespace Runner

theorem failed_without (logger : Log.Logger) (result : RunResult RunFault) (f : RunFault)
    (x : Location) (w : World) :
    (failed logger result f w).2.without x = (failed logger result f (w.without x)).2 := by
  rw [failed, failed]
  dsimp only
  split
  · exact log_without ..
  · rw [log_without, log_without]

section TwoRuns

variable {r : Runner} {launch : Program.Launch} {cancelled : Bool} {tool : Tool} {input : String}
  {w w' : World} {d : Location} {s : String} (hsame : w'.without (d ++ [s]) = w.without (d ++ [s]))

include hsame

theorem erase_eq_of_without : w'.fs.erase (d ++ [s]) = w.fs.erase (d ++ [s]) :=
  congrArg World.fs hsame

theorem workingDir_of_without : workingDir w'.fs = workingDir w.fs := by
  rw [workingDir, workingDir, cwd_of_terms (terms_of_erase_eq (erase_eq_of_without hsame))]

theorem fileExists_of_without {p : String} (hp : d ++ [s] ∉ w.fs.visits true p) :
    w'.fs.fileExists p = w.fs.fileExists p := by
  have herase := erase_eq_of_without hsame
  refine fileExists_congr (terms_of_erase_eq herase) fun x hx => .of_eq ?_
  apply get?_of_erase_eq herase
  rintro rfl
  exact hp hx

/-- Two runs that are begun with the same files after a leftover is removed are the same run. -/
theorem assemble_eq_of_removeStale {fs : FileSystem}
    (hexe : w.fs.fileExists (Path.abs (workingDir w.fs) tool.path) = true)
    (hsource : w.fs.fileExists (sourcePath w.fs input) = true)
    (hexe' : w'.fs.fileExists (Path.abs (workingDir w.fs) tool.path) = true)
    (hsource' : w'.fs.fileExists (sourcePath w.fs input) = true)
    (hstale : removeStale w.fs (r.leftPath input w.fs) = .ok fs)
    (hstale' : removeStale w'.fs (r.leftPath input w.fs) = .ok fs) :
    r.assemble launch cancelled tool input w' = r.assemble launch cancelled tool input w := by
  have hworld : ({ w' with fs := fs } : World) = { w with fs := fs } := by
    have hlog := congrArg World.log hsame
    have hconsole := congrArg World.console hsame
    have hwindows := congrArg World.windows hsame
    rw [World.without, World.without] at hlog hconsole hwindows
    dsimp only at hlog hconsole hwindows
    rw [hlog, hconsole, hwindows]
  rw [sourcePath] at hsource hsource'
  rw [leftPath, sourcePath] at hstale hstale'
  rw [assemble, assemble]
  dsimp only
  rw [workingDir_of_without hsame, hexe, hsource, hexe', hsource', hstale, hstale']
  simp only [Bool.true_eq_false, if_false, hworld]

end TwoRuns

/-- A run of a tool that is missing, or on a source that is missing, ends before it looks for
anything else. -/
theorem assemble_unready {r : Runner} {launch : Program.Launch} {cancelled : Bool} {tool : Tool}
    {input : String} {w : World}
    (h : ¬ (w.fs.fileExists (Path.abs (workingDir w.fs) tool.path) = true ∧
      w.fs.fileExists (sourcePath w.fs input) = true)) :
    r.assemble launch cancelled tool input w =
      failed (r.runLogger tool (Path.stem input))
        { tool := tool.name, base := Path.stem input, outcome := .ok "" }
        (if w.fs.fileExists (Path.abs (workingDir w.fs) tool.path) = true then .inputNotFound input
          else .toolNotFound tool.path) w := by
  rw [assemble]
  dsimp only
  by_cases hexe : w.fs.fileExists (Path.abs (workingDir w.fs) tool.path) = true
  · have hsource : w.fs.fileExists (Path.abs (workingDir w.fs) input) = false := by
      rw [← Bool.not_eq_true]
      exact fun hs => h ⟨hexe, hs⟩
    rw [if_pos hexe, hexe, if_neg (by simp), if_pos hsource]
  · rw [if_neg hexe, if_pos (by simpa using hexe)]

/-- A tool that ends well and leaves nothing in the place of the artifact has no artifact, whatever
was there before. -/
theorem assemble_missing {r : Runner} {launch : Program.Launch} {cancelled : Bool} {tool : Tool}
    {input : String} {w : World} {start : FileSystem} {d : Location} {s : String}
    (hleft : w.fs.Clearable (r.leftPath input w.fs) d s) (hp : r.Prepared tool input w start)
    (hc : cancelled = false) (ht : r.timing.processTimeout.isPositive = true)
    (hclean : (launch start (r.commandFor tool input w.fs)).ending = .clean)
    (hmade : ∀ n, (launch start (r.commandFor tool input w.fs)).fs.stat (r.leftPath input w.fs) =
      .ok n → start.stat (r.leftPath input w.fs) = .ok n) :
    (r.assemble launch cancelled tool input w).1.outcome =
      .error (.artifact (.missing (r.leftPath input w.fs))) := by
  have hnone : ∀ {fs : FileSystem} {n : Node},
      Logged r.logger (launch start (r.commandFor tool input w.fs)).fs fs →
      fs.stat (r.leftPath input w.fs) ≠ .ok n := by
    intro fs n hl hstat
    obtain ⟨l, hspot, _⟩ := stat_eq_ok hstat
    obtain ⟨m, hm⟩ := stat_of_spot (hl.retains.2.spot hspot)
    obtain ⟨fs₁, hstale, hlog⟩ := hp.stale
    rw [hleft.removeStale, Except.ok.injEq] at hstale
    rw [← hstale] at hlog
    obtain ⟨k, hk, _⟩ := stat_eq_ok (hmade m hm)
    exact spot_of_erase hleft.entry hlog.retains.2 hk
  obtain ⟨fs, hends, _⟩ := @assemble_ends r launch cancelled tool input w
  generalize (r.assemble launch cancelled tool input w).1.outcome = outcome at hends
  cases hends with
  | unready h => exact absurd hp (h start)
  | held _ h =>
    rw [hc, ht] at h
    cases h with
    | inl h => cases h
    | inr h => cases h
  | broken hp' h =>
    rw [hp.eq hp'] at h
    exact absurd hclean h
  | failed hp' hl hgot hf =>
    rw [hp.eq hp'] at hl
    cases hgot with
    | missing =>
      cases hf
      rfl
    | directory h | homeless h | stuck h | moved h => exact absurd h (hnone hl)
  | delivered hp' hl hgot hf hpath =>
    rw [hp.eq hp'] at hl
    cases hgot with
    | missing => cases hf
    | directory h | homeless h | stuck h | moved h => exact absurd h (hnone hl)

variable (r : Runner) (launch : Program.Launch) (cancelled : Bool) (tool : Tool) (input : String)

theorem assemble_ignores_leftover {w w' : World} {d : Location} {s : String}
    (hsame : w'.without (d ++ [s]) = w.without (d ++ [s]))
    (hleft : w.fs.Clearable (r.leftPath input w.fs) d s)
    (hleft' : w'.fs.Clearable (r.leftPath input w.fs) d s)
    (hexe : d ++ [s] ∉ w.fs.visits true (Path.abs (workingDir w.fs) tool.path))
    (hsource : d ++ [s] ∉ w.fs.visits true (sourcePath w.fs input)) :
    (r.assemble launch cancelled tool input w').1 = (r.assemble launch cancelled tool input w).1 ∧
    (r.assemble launch cancelled tool input w').2.without (d ++ [s]) =
      (r.assemble launch cancelled tool input w).2.without (d ++ [s]) ∧
    (w.fs.fileExists (Path.abs (workingDir w.fs) tool.path) = true →
      w.fs.fileExists (sourcePath w.fs input) = true →
      (r.assemble launch cancelled tool input w').2 =
        (r.assemble launch cancelled tool input w).2 ∧
      (cancelled = false → r.timing.processTimeout.isPositive = true →
        ∀ start, r.startFiles tool input w = .ok start →
        (launch start (r.commandFor tool input w.fs)).ending = .clean →
        (∀ n, (launch start (r.commandFor tool input w.fs)).fs.stat (r.leftPath input w.fs) =
          .ok n → start.stat (r.leftPath input w.fs) = .ok n) →
        (r.assemble launch cancelled tool input w).1.outcome =
          .error (.artifact (.missing (r.leftPath input w.fs))))) := by
  have hdir := workingDir_of_without hsame
  have hexe' := fileExists_of_without hsame hexe
  have hsource' := fileExists_of_without hsame hsource
  by_cases hready : w.fs.fileExists (Path.abs (workingDir w.fs) tool.path) = true ∧
    w.fs.fileExists (sourcePath w.fs input) = true
  · have hstale := hleft'.removeStale
    rw [erase_eq_of_without hsame] at hstale
    have hrun : r.assemble launch cancelled tool input w' =
        r.assemble launch cancelled tool input w :=
      assemble_eq_of_removeStale hsame hready.1 hready.2 (hexe'.trans hready.1)
        (hsource'.trans hready.2) hleft.removeStale hstale
    rw [hrun]
    refine ⟨rfl, rfl, fun _ _ => ⟨rfl, fun hc ht start hstart hclean hmade => ?_⟩⟩
    exact assemble_missing hleft ⟨hready.1, hready.2, hstart⟩ hc ht hclean hmade
  · have hready' : ¬ (w'.fs.fileExists (Path.abs (workingDir w'.fs) tool.path) = true ∧
        w'.fs.fileExists (sourcePath w'.fs input) = true) := by
      rw [sourcePath, hdir, hexe']
      rw [sourcePath] at hready hsource'
      rwa [hsource']
    rw [assemble_unready hready, assemble_unready hready', hdir, hexe']
    refine ⟨rfl, ?_, fun h h' => absurd ⟨h, h'⟩ hready⟩
    rw [failed_without, failed_without, hsame]

def sampleRunner : Runner where
  timing := .default
  artifactExt := ".hex"
  canDismiss := false
  logger := .discard

def sampleTool : Tool where
  name := "a"
  path := "/x/a"
  role := .candidate
  outputDir := "/o/a"
  byproducts := [".lst"]

def workshop : FileSystem where
  nodes :=
    [([], .dir 0o755), (["c"], .dir 0o755), (["c", "p.asm"], .file 0 0o644 "nop".toUTF8),
      (["x"], .dir 0o755), (["x", "a"], .file 1 0o755 "".toUTF8)]
  nextId := 2
  cwd := []
  mounts := []
  privileged := false

def idle : Program.Launch := fun fs _ => { fs, ending := .clean }

theorem assemble_ignores_leftover_sample :
    let w : World := { fs := workshop }
    let w' : World := { fs := workshop.set ["c", "p.hex"] (.link "/c/p.asm") }
    sampleRunner.assemble idle false sampleTool "/c/p.asm" w' =
      sampleRunner.assemble idle false sampleTool "/c/p.asm" w ∧
    (sampleRunner.assemble idle false sampleTool "/c/p.asm" w').1.outcome =
      .error (.artifact (.missing "/c/p.hex")) := by
  intro w w'
  have hpath : sampleRunner.leftPath "/c/p.asm" w.fs = "/c/p.hex" := by decide +kernel
  have hleft : workshop.Clearable "/c/p.hex" ["c"] "p.hex" := by
    refine ⟨by decide +kernel, by decide +kernel, fun n hn => ?_⟩
    have hnone : workshop.get? ["c", "p.hex"] = none := by decide +kernel
    rw [List.cons_append, List.nil_append, hnone] at hn
    cases hn
  have hleft' :
      (workshop.set ["c", "p.hex"] (.link "/c/p.asm")).Clearable "/c/p.hex" ["c"] "p.hex" := by
    refine ⟨by decide +kernel, by decide +kernel, fun n hn hd => ?_⟩
    rw [get?_set] at hn
    cases hn
    cases hd
  have hstart : (sampleRunner.startFiles sampleTool "/c/p.asm" w).toOption.isSome = true := by
    decide +kernel
  cases hs : sampleRunner.startFiles sampleTool "/c/p.asm" w with
  | error f =>
    rw [hs] at hstart
    cases hstart
  | ok start =>
  obtain ⟨hresult, _, hrest⟩ := @assemble_ignores_leftover sampleRunner idle false sampleTool
    "/c/p.asm" w w' ["c"] "p.hex" rfl (hpath ▸ hleft) (hpath ▸ hleft') (by decide +kernel)
    (by decide +kernel)
  obtain ⟨hworld, hmissing⟩ := hrest (by decide +kernel) (by decide +kernel)
  refine ⟨Prod.ext hresult hworld, ?_⟩
  rw [hresult, hmissing rfl (by decide) start hs rfl fun _ h => h, hpath]

/-- Where the tool is missing, a leftover stays; and where it may not be removed, it decides how the
run ends. -/
theorem assemble_keeps_leftover :
    let left := workshop.set ["c", "p.hex"] (.file 2 0o644 "old".toUTF8)
    let closed := workshop.set ["c"] (.dir 0o555)
    let closedLeft := closed.set ["c", "p.hex"] (.file 2 0o644 "old".toUTF8)
    let astray := { sampleTool with path := "/x/b" }
    (left.Clearable "/c/p.hex" ["c"] "p.hex" ∧ workshop.Clearable "/c/p.hex" ["c"] "p.hex" ∧
      left.erase ["c", "p.hex"] = workshop.erase ["c", "p.hex"] ∧
      ((sampleRunner.assemble idle false astray "/c/p.asm" { fs := left }).2.fs.get?
        ["c", "p.hex"]).isSome = true ∧
      ((sampleRunner.assemble idle false astray "/c/p.asm" { fs := workshop }).2.fs.get?
        ["c", "p.hex"]).isSome = false) ∧
    closedLeft.erase ["c", "p.hex"] = closed.erase ["c", "p.hex"] ∧
      (sampleRunner.assemble idle false sampleTool "/c/p.asm" { fs := closedLeft }).1.outcome =
        .error (.staleArtifact "/c/p.hex" ⟨"remove", "/c/p.hex", .denied⟩) ∧
      (sampleRunner.assemble idle false sampleTool "/c/p.asm" { fs := closed }).1.outcome =
        .error (.artifact (.missing "/c/p.hex")) := by
  intro left closed closedLeft astray
  refine ⟨⟨⟨by decide +kernel, by decide +kernel, fun n hn hd => ?_⟩,
    ⟨by decide +kernel, by decide +kernel, fun n hn => ?_⟩, rfl, by decide +kernel,
    by decide +kernel⟩, rfl, by decide +kernel, by decide +kernel⟩
  · rw [get?_set] at hn
    cases hn
    cases hd
  · have hnone : workshop.get? ["c", "p.hex"] = none := by decide +kernel
    rw [List.cons_append, List.nil_append, hnone] at hn
    cases hn

end Runner

end Crosscheck
