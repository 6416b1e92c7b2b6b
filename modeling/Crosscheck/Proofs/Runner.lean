import Crosscheck.Runner
import Crosscheck.Proofs.Artifact

namespace Crosscheck

open FileSystem

theorem Node.updated_updated (id : Nat) (f g : ByteArray → ByteArray) (n : Node) :
    (n.updated id f).updated id g = n.updated id (g ∘ f) := by
  cases n with
  | file i mode old => by_cases h : i = id <;> simp [Node.updated, h]
  | dir | link | fifo => rfl

theorem Node.updated_append (id : Nat) (a b : ByteArray) (n : Node) :
    (n.updated id (· ++ a)).updated id (· ++ b) = n.updated id (· ++ (a ++ b)) := by
  rw [Node.updated_updated]
  congr 1
  exact funext fun bytes => ByteArray.append_assoc

theorem FileSystem.appendTo_appendTo (fs : FileSystem) (id : Nat) (a b : ByteArray) :
    (fs.appendTo id a).appendTo id b = fs.appendTo id (a ++ b) := by
  rw [appendTo, appendTo, appendTo, update, update, update, List.map_map]
  congr 1
  exact List.map_congr_left fun e _ => congrArg (e.1, ·) (Node.updated_append id a b e.2)

/-- What a log can have made of what stands at a place. -/
def Grown (logger : Log.Logger) (o o' : Option Node) : Prop :=
  o' = o ∨ ∃ id bytes, logger.file = some id ∧ o' = o.map (Node.updated id (· ++ bytes))

namespace Grown

variable {logger : Log.Logger} {o o₁ o' : Option Node}

theorem refl (logger : Log.Logger) (o : Option Node) : Grown logger o o := .inl rfl

theorem trans (h : Grown logger o o₁) (h' : Grown logger o₁ o') : Grown logger o o' := by
  rcases h with rfl | ⟨id, a, hid, rfl⟩
  · exact h'
  rcases h' with rfl | ⟨id', b, hid', rfl⟩
  · exact .inr ⟨id, a, hid, rfl⟩
  · rw [hid, Option.some.injEq] at hid'
    subst id'
    refine .inr ⟨id, a ++ b, hid, ?_⟩
    rw [Option.map_map]
    exact congrFun (congrArg Option.map (funext fun n => Node.updated_append id a b n)) o

theorem eq (h : Grown logger o o')
    (hl : ∀ id mode bytes, o = some (.file id mode bytes) → logger.file ≠ some id) : o' = o := by
  rcases h with rfl | ⟨id, bytes, hid, rfl⟩
  · rfl
  cases o with
  | none => rfl
  | some n =>
    cases n with
    | file i mode old =>
      have hne : i ≠ id := fun he => hl i mode old rfl (by rw [hid, he])
      simp [Node.updated, hne]
    | dir | link | fifo => rfl

theorem file {id mode : Nat} {bytes : ByteArray} (h : Grown logger (some (.file id mode bytes)) o') :
    ∃ more, o' = some (.file id mode (bytes ++ more)) ∧
      (logger.file ≠ some id → more = ByteArray.empty) := by
  have hempty : bytes ++ ByteArray.empty = bytes := ByteArray.append_empty
  rcases h with rfl | ⟨i, more, hi, rfl⟩
  · exact ⟨ByteArray.empty, by rw [hempty], fun _ => rfl⟩
  · by_cases he : id = i
    · subst i
      exact ⟨more, by simp [Node.updated], fun hne => absurd hi hne⟩
    · exact ⟨ByteArray.empty, by simp [Node.updated, he, hempty], fun _ => rfl⟩

theorem node {m : Node} (h : Grown logger (some m) o') (hd : m.isDir = false)
    (hl : ∀ target, m ≠ .link target) :
    ∃ m', o' = some m' ∧ m'.isDir = false ∧ ∀ target, m' ≠ .link target := by
  rcases h with rfl | ⟨id, bytes, _, rfl⟩
  · exact ⟨m, rfl, hd, hl⟩
  · refine ⟨m.updated id (· ++ bytes), rfl, by rw [Node.isDir_updated, hd], fun target => ?_⟩
    cases m with
    | file i mode old => by_cases hi : i = id <;> simp [Node.updated, hi]
    | dir | fifo => simp [Node.updated]
    | link aim => exact absurd rfl (hl aim)

theorem isRegular {n : Node} (h : Grown logger o (some n))
    (ho : ∀ m, o = some m → m.isRegular = true) : n.isRegular = true := by
  rcases h with h | ⟨id, bytes, _, h⟩
  · exact ho n h.symm
  · obtain ⟨m, rfl, rfl⟩ := Option.map_eq_some_iff.mp h.symm
    have hm := ho m rfl
    cases m with
    | file i mode old => by_cases hi : i = id <;> simp [Node.updated, Node.isRegular, hi]
    | dir | link | fifo => cases hm

end Grown

/-- What a logger can have done to the files. -/
def Logged (logger : Log.Logger) (fs fs' : FileSystem) : Prop :=
  fs' = fs ∨ ∃ id bytes, logger.file = some id ∧ fs' = fs.appendTo id bytes

namespace Logged

variable {logger : Log.Logger} {fs fs₁ fs' : FileSystem}

theorem refl (logger : Log.Logger) (fs : FileSystem) : Logged logger fs fs := .inl rfl

theorem trans (h : Logged logger fs fs₁) (h' : Logged logger fs₁ fs') : Logged logger fs fs' := by
  rcases h with rfl | ⟨id, a, hid, rfl⟩
  · exact h'
  rcases h' with rfl | ⟨id', b, hid', rfl⟩
  · exact .inr ⟨id, a, hid, rfl⟩
  · rw [hid, Option.some.injEq] at hid'
    subst id'
    exact .inr ⟨id, a ++ b, hid, appendTo_appendTo fs id a b⟩

theorem terms (h : Logged logger fs fs') : fs'.terms = fs.terms := by
  rcases h with rfl | ⟨id, bytes, _, rfl⟩ <;> rfl

theorem nextId (h : Logged logger fs fs') : fs'.nextId = fs.nextId := by
  rcases h with rfl | ⟨id, bytes, _, rfl⟩ <;> rfl

theorem grown (h : Logged logger fs fs') (l : Location) : Grown logger (fs.get? l) (fs'.get? l) := by
  rcases h with rfl | ⟨id, bytes, hid, rfl⟩
  · exact .refl _ _
  · exact .inr ⟨id, bytes, hid, get?_appendTo fs id bytes l⟩

theorem get?_eq (h : Logged logger fs fs') {l : Location}
    (hl : ∀ id mode bytes, fs.get? l = some (.file id mode bytes) → logger.file ≠ some id) :
    fs'.get? l = fs.get? l := (h.grown l).eq hl

theorem linkAt (h : Logged logger fs fs') : fs'.linkAt = fs.linkAt := by
  rcases h with rfl | ⟨id, bytes, hid, rfl⟩
  · rfl
  funext l
  rw [FileSystem.linkAt, FileSystem.linkAt, get?_appendTo]
  cases hg : fs.get? l with
  | none => rfl
  | some n =>
    cases n with
    | file i mode old => by_cases hi : i = id <;> simp [Node.updated, hi]
    | dir | link | fifo => rfl

theorem keepsNames (h : Logged logger fs fs') : KeepsNames fs fs' := by
  rcases h with rfl | ⟨id, bytes, _, rfl⟩
  · exact .refl fs'
  refine .of_files fun l i mode b hl => ?_
  rw [get?_appendTo] at hl
  obtain ⟨n, hn, hu⟩ := Option.map_eq_some_iff.mp hl
  cases n with
  | file j m old =>
    rw [Node.updated] at hu
    split at hu <;> cases hu <;> exact ⟨_, _, hn⟩
  | dir | link | fifo => cases hu

end Logged

theorem log_logged (l : Log.Logger) (w : World) (r : Log.Record) : Logged l w.fs (l.log w r).fs := by
  have hw : ∀ b : Bool, (if b then w.noteLine (l.record r).textLine else w).fs = w.fs := by
    intro b
    cases b <;> rfl
  rw [Log.Logger.log]
  split
  · rename_i id hid
    split
    · refine .inr ⟨id, ((l.record r).jsonLine ++ "\n").toUTF8, hid, ?_⟩
      dsimp only
      rw [hw]
    · exact .inl (hw _)
  · exact .inl (hw _)

namespace Runner

variable (r : Runner) (launch : Program.Launch) (cancelled : Bool) (tool : Tool) (input : String)

def sourcePath (fs : FileSystem) (input : String) : String := Path.abs (workingDir fs) input

def commandFor (fs : FileSystem) : Program.Command :=
  r.command tool (Path.abs (workingDir fs) tool.path) (sourcePath fs input)

theorem commandFor_timeout (fs : FileSystem) :
    (r.commandFor tool input fs).timeout = r.timing.processTimeout := rfl

theorem commandFor_dir (fs : FileSystem) :
    (r.commandFor tool input fs).dir = Path.dir (sourcePath fs input) := by
  rw [commandFor, command]

def leftPath (fs : FileSystem) : String :=
  Path.join [Path.dir (sourcePath fs input), Path.stem input ++ r.artifactExt]

def startFiles (w : World) : Except RunFault FileSystem :=
  (removeStale w.fs (r.leftPath input w.fs)).map fun fs =>
    (announce (r.runLogger tool (Path.stem input)) (r.commandFor tool input w.fs) { w with fs }).fs

/-- What the process of a tool leaves in the place of the artifact, in the run that is begun in a
given state. -/
def left (w : World) : Option ByteArray :=
  (r.startFiles tool input w).toOption.bind fun fs =>
    (launch fs (r.commandFor tool input w.fs)).fs.bytesAt? (r.leftPath input w.fs)

structure Prepared (w : World) (fs : FileSystem) : Prop where
  exe : w.fs.fileExists (Path.abs (workingDir w.fs) tool.path) = true
  source : w.fs.fileExists (sourcePath w.fs input) = true
  start : r.startFiles tool input w = .ok fs

/-- The ways in which a run can go, as far as the files can tell: whether there is an artifact in
the end, and what is left. -/
inductive Course (w : World) : Bool → FileSystem → Prop
  | missing (h : w.fs.fileExists (Path.abs (workingDir w.fs) tool.path) = false ∨
      w.fs.fileExists (sourcePath w.fs input) = false) : Course w false w.fs
  | stuck {f : RunFault} (hsource : w.fs.fileExists (sourcePath w.fs input) = true)
      (h : removeStale w.fs (r.leftPath input w.fs) = .error f) : Course w false w.fs
  | held {fs : FileSystem} (hp : r.Prepared tool input w fs)
      (h : cancelled = true ∨ r.timing.processTimeout.isPositive = false) : Course w false fs
  | broken {fs : FileSystem} (hp : r.Prepared tool input w fs)
      (h : (launch fs (r.commandFor tool input w.fs)).ending ≠ .clean) :
      Course w false (launch fs (r.commandFor tool input w.fs)).fs
  | ended {fs : FileSystem} {got : Artifact.Collected} (hp : r.Prepared tool input w fs)
      (h : (launch fs (r.commandFor tool input w.fs)).ending = .clean)
      (hgot : Artifact.collect (launch fs (r.commandFor tool input w.fs)).fs
        (Path.dir (sourcePath w.fs input)) (Path.stem input) tool.outputDir r.artifactExt
        tool.byproducts = got) :
      Course w (got.fault.isNone && got.path.isSome) got.fs

variable {r launch cancelled tool input}

theorem logged_of_file_eq {logger : Log.Logger} (hl : logger.file = r.logger.file) (w : World)
    (record : Log.Record) : Logged r.logger w.fs (logger.log w record).fs := by
  have h := log_logged logger w record
  rwa [Logged, hl] at h

theorem failed_logged {logger : Log.Logger} (hl : logger.file = r.logger.file)
    (result : RunResult RunFault) (f : RunFault) (w : World) :
    Logged r.logger w.fs (failed logger result f w).2.fs := by
  rw [failed]
  dsimp only
  split
  · exact logged_of_file_eq hl _ _
  · exact (logged_of_file_eq hl _ _).trans (logged_of_file_eq hl _ _)

theorem Prepared.left_eq {w : World} {fs : FileSystem} (h : r.Prepared tool input w fs) :
    r.left launch tool input w =
      (launch fs (r.commandFor tool input w.fs)).fs.bytesAt? (r.leftPath input w.fs) := by
  rw [left, h.start, Except.toOption, Option.bind_some]

theorem Prepared.stale {w : World} {fs : FileSystem} (h : r.Prepared tool input w fs) :
    ∃ fs₁, removeStale w.fs (r.leftPath input w.fs) = .ok fs₁ ∧ Logged r.logger fs₁ fs := by
  have hstart := h.start
  rw [startFiles] at hstart
  cases hs : removeStale w.fs (r.leftPath input w.fs) with
  | error f =>
    rw [hs] at hstart
    cases hstart
  | ok fs₁ =>
    rw [hs] at hstart
    cases hstart
    exact ⟨fs₁, rfl, @logged_of_file_eq r (r.runLogger tool (Path.stem input)) rfl
      { w with fs := fs₁ } _⟩

theorem removeStale_touches {X : Location → Prop} {fs fs' : FileSystem} {p : String}
    (h : removeStale fs p = .ok fs') (hX : ∀ l, fs.lead false p = some l → X l) :
    Touches X fs fs' := by
  rw [removeStale] at h
  split at h
  · rename_i fs₁ hr
    cases h
    exact remove_touches hr hX
  · split at h
    · cases h
      exact .refl X fs
    · cases h

theorem removeStale_within {fs fs' : FileSystem} {p : String} (h : removeStale fs p = .ok fs') :
    Within fs' fs := by
  rw [removeStale] at h
  split at h
  · rename_i fs₁ hr
    cases h
    exact remove_within hr
  · split at h
    · cases h
      exact .refl fs
    · cases h

theorem pathFault?_of_removeStale {fs fs' : FileSystem} {loc : Location}
    (h : removeStale fs (Path.toLocation loc) = .ok fs') :
    pathFault? (Path.toLocation loc) = none := by
  cases hfault : pathFault? (Path.toLocation loc) with
  | none => rfl
  | some e =>
    have hne : e ≠ .notFound := by
      rintro rfl
      exact pathFault?_ne_notFound (Path.toLocation_ne_empty loc) hfault
    rw [removeStale, remove_of_pathFault? hfault] at h
    dsimp only [refused] at h
    rw [if_neg hne] at h
    cases h

/-- A tool is started with no artifact beside its source. -/
theorem removeStale_gone {fs fs' : FileSystem} {loc d : Location} {n : String}
    (hreach : fs.Reaches (Path.toLocation loc) d) (hloc : ∀ s ∈ loc, Path.IsName s)
    (hn : Path.IsName n) (h : removeStale fs (Path.toLocation (loc ++ [n])) = .ok fs') :
    fs'.get? (d ++ [n]) = none := by
  have hentry := hreach.entry hloc hn (pathFault?_of_removeStale h)
  rw [removeStale] at h
  split at hentry
  · have hremove : fs.remove (Path.toLocation (loc ++ [n])) =
        .error ⟨"remove", Path.toLocation (loc ++ [n]), .nameTooLong⟩ := by
      rw [remove, unlink, rmdir, hentry]
      rfl
    rw [hremove] at h
    cases h
  rw [remove_of_entry hentry] at h
  cases hg : fs.get? (d ++ [n]) with
  | none =>
    rw [hg] at h
    cases h
    exact hg
  | some m =>
    rw [hg] at h
    dsimp only at h
    by_cases hc : fs.mayChange d = false
    · rw [if_pos hc] at h
      cases h
    rw [if_neg hc] at h
    split at h
    · rename_i fs₁ hr
      cases h
      split at hr
      · cases hr
      · cases hr
        rw [get?_erase, if_pos rfl]
    · rename_i e hr
      split at hr
      · cases hr
        cases h
      · cases hr

theorem removeStale_erase {fs fs' : FileSystem} {loc d : Location} {n : String}
    (hreach : fs.Reaches (Path.toLocation loc) d) (hloc : ∀ s ∈ loc, Path.IsName s)
    (hn : Path.IsName n) (h : removeStale fs (Path.toLocation (loc ++ [n])) = .ok fs') :
    fs' = fs ∨ fs' = fs.erase (d ++ [n]) := by
  have hfault := pathFault?_of_removeStale h
  rw [removeStale] at h
  split at h
  · rename_i fs₁ hr
    cases h
    obtain ⟨dir, s, slash, _, he, _, _, _, rfl⟩ := remove_eq_ok hr
    rw [hreach.entry hloc hn hfault] at he
    split at he
    · cases he
    · cases he
      exact .inr rfl
  · split at h
    · cases h
      exact .inl rfl
    · cases h

theorem watched_logged {logger : Log.Logger} (hl : logger.file = r.logger.file) (title : String)
    (events : List Watcher.Event) (w : World) :
    Logged r.logger w.fs (r.watched logger title events w).fs := by
  have hfold : ∀ (entries : List Watcher.Entry) (w : World), Logged r.logger w.fs (entries.foldl
      (fun w e => logger.log w (e.record title r.timing.watcherStopTimeout)) w).fs := by
    intro entries
    induction entries with
    | nil => exact fun w => .refl _ w.fs
    | cons e rest ih => exact fun w => (logged_of_file_eq hl w _).trans (ih _)
  exact hfold _ _

theorem runFault?_eq_none {c : Program.Command} {run : Program.Run} :
    runFault? cancelled c run = none ↔
      ¬ (cancelled = true ∨ c.timeout.isPositive = false) ∧ run.ending = .clean := by
  rw [runFault?]
  by_cases hc : cancelled = true
  · simp [hc]
  by_cases ht : c.timeout.isPositive = false
  · simp [hc, ht]
  · rw [if_neg hc, if_neg ht]
    cases run.ending <;> simp [hc, ht]

variable (r launch cancelled tool input)

def opened : RunResult RunFault := { tool := tool.name, base := Path.stem input, outcome := .ok "" }

def closed (run : Program.Run) : RunResult RunFault :=
  { tool := tool.name, base := Path.stem input, outcome := .ok "", duration := run.duration,
    stdout := run.stdout, stderr := run.stderr }

structure Executed (w : World) (fs : FileSystem) (run : Program.Run) (fault : Option RunFault)
    (w' : World) : Prop where
  exe : w.fs.fileExists (Path.abs (workingDir w.fs) tool.path) = true
  source : w.fs.fileExists (sourcePath w.fs input) = true
  stale : removeStale w.fs (r.leftPath input w.fs) = .ok fs
  eq : r.execute launch cancelled (r.runLogger tool (Path.stem input))
    (r.commandFor tool input w.fs) { w with fs } = (run, fault, w')

/-- A full account of a run: what each step found, up to the one that decided on the result. -/
inductive Account (w : World) (result : RunResult RunFault × World) : Prop
  | noTool (h : w.fs.fileExists (Path.abs (workingDir w.fs) tool.path) = false)
      (eq : result = failed (r.runLogger tool (Path.stem input)) (opened tool input)
        (.toolNotFound tool.path) w)
  | noInput (hexe : w.fs.fileExists (Path.abs (workingDir w.fs) tool.path) = true)
      (h : w.fs.fileExists (sourcePath w.fs input) = false)
      (eq : result = failed (r.runLogger tool (Path.stem input)) (opened tool input)
        (.inputNotFound input) w)
  | stuck {f : RunFault} (hexe : w.fs.fileExists (Path.abs (workingDir w.fs) tool.path) = true)
      (hsource : w.fs.fileExists (sourcePath w.fs input) = true)
      (h : removeStale w.fs (r.leftPath input w.fs) = .error f)
      (eq : result = failed (r.runLogger tool (Path.stem input)) (opened tool input) f w)
  | broken {fs : FileSystem} {run : Program.Run} {f : RunFault} {w' : World}
      (hx : r.Executed launch cancelled tool input w fs run (some f) w')
      (eq : result = failed (r.runLogger tool (Path.stem input)) (closed tool input run) f w')
  | uncollected {fs : FileSystem} {run : Program.Run} {w' : World} {got : Artifact.Collected}
      {f : Artifact.Fault} (hx : r.Executed launch cancelled tool input w fs run none w')
      (hgot : Artifact.collect w'.fs (Path.dir (sourcePath w.fs input)) (Path.stem input)
        tool.outputDir r.artifactExt tool.byproducts = got) (hf : got.fault = some f)
      (eq : result = failed (r.runLogger tool (Path.stem input)) (closed tool input run)
        (.artifact f) { w' with fs := got.fs })
  | delivered {fs : FileSystem} {run : Program.Run} {w' : World} {got : Artifact.Collected}
      {path : String} (hx : r.Executed launch cancelled tool input w fs run none w')
      (hgot : Artifact.collect w'.fs (Path.dir (sourcePath w.fs input)) (Path.stem input)
        tool.outputDir r.artifactExt tool.byproducts = got) (hf : got.fault = none)
      (hpath : got.path = some path)
      (eq : result = succeeded (r.runLogger tool (Path.stem input)) (closed tool input run) path
        { w' with fs := got.fs })

theorem assemble_account (w : World) :
    r.Account launch cancelled tool input w (r.assemble launch cancelled tool input w) := by
  rw [assemble]
  dsimp only
  split
  · rename_i h
    exact .noTool h rfl
  rename_i hexe
  rw [Bool.not_eq_false] at hexe
  split
  · rename_i h
    exact .noInput hexe h rfl
  rename_i hsource
  rw [Bool.not_eq_false] at hsource
  split
  · rename_i f hstale
    exact .stuck hexe hsource hstale rfl
  rename_i fs hstale
  rcases hx : r.execute launch cancelled (r.runLogger tool (Path.stem input))
    (r.commandFor tool input w.fs) { w with fs } with ⟨run, fault, w'⟩
  have hran : r.Executed launch cancelled tool input w fs run fault w' :=
    ⟨hexe, hsource, hstale, hx⟩
  rw [commandFor, sourcePath] at hx
  rw [hx]
  cases fault with
  | some f => exact .broken hran rfl
  | none =>
    dsimp only
    split
    · rename_i f hf
      exact .uncollected hran rfl hf rfl
    · rename_i path hf hpath
      exact .delivered hran rfl hf hpath rfl
    · -- an artifact without a fault has a path
      rename_i hf hpath
      rw [(Artifact.collect_collects ..).path_eq hf] at hpath
      cases hpath

variable {r launch cancelled tool input}

/-- The process of a run is held back, or its program is run on the files that it was prepared with;
then only the watcher writes to the log. -/
theorem Executed.process {w w' : World} {fs : FileSystem} {run : Program.Run}
    {fault : Option RunFault} (h : r.Executed launch cancelled tool input w fs run fault w') :
    ∃ start, r.Prepared tool input w start ∧
      runFault? cancelled (r.commandFor tool input w.fs) run = fault ∧
      Logged r.logger run.fs w'.fs ∧ (r.canDismiss = false → w'.fs = run.fs) ∧
      if cancelled = true ∨ r.timing.processTimeout.isPositive = false then run.fs = start
        else run = launch start (r.commandFor tool input w.fs) := by
  have hprepared : r.Prepared tool input w (announce (r.runLogger tool (Path.stem input))
      (r.commandFor tool input w.fs) { w with fs }).fs := by
    refine ⟨h.exe, h.source, ?_⟩
    rw [startFiles, h.stale]
    rfl
  refine ⟨_, hprepared, ?_⟩
  have htimeout := r.commandFor_timeout tool input w.fs
  have hwatch : r.canDismiss = false → (r.commandFor tool input w.fs).watch = none := by
    intro hd
    simp [commandFor, command, hd]
  obtain ⟨-, -, -, hx⟩ := h
  generalize r.commandFor tool input w.fs = c at hx htimeout hwatch ⊢
  rw [execute, Prod.mk.injEq, Prod.mk.injEq] at hx
  obtain ⟨rfl, rfl, rfl⟩ := hx
  refine ⟨rfl, ?_, fun hd => by rw [hwatch hd], ?_⟩
  · cases c.watch with
    | none => exact .refl _ _
    | some watch => exact @watched_logged r (r.runLogger tool (Path.stem input)) rfl _ _ _
  · rw [htimeout]
    split
    · rename_i hheld
      rw [if_pos (by simpa using hheld)]
    · rename_i hheld
      rw [if_neg (by simpa using hheld)]

theorem Executed.ended {w w' : World} {fs : FileSystem} {run : Program.Run}
    (h : r.Executed launch cancelled tool input w fs run none w') :
    ∃ start, r.Prepared tool input w start ∧ cancelled = false ∧
      r.timing.processTimeout.isPositive = true ∧
      (launch start (r.commandFor tool input w.fs)).ending = .clean ∧
      Logged r.logger (launch start (r.commandFor tool input w.fs)).fs w'.fs ∧
      (r.canDismiss = false → w'.fs = (launch start (r.commandFor tool input w.fs)).fs) := by
  obtain ⟨start, hp, hfault, hlogged, hfs, hrun⟩ := h.process
  obtain ⟨hgoing, hclean⟩ := runFault?_eq_none.mp hfault
  rw [commandFor_timeout] at hgoing
  rw [if_neg hgoing] at hrun
  rw [hrun] at hclean hlogged hfs
  rw [not_or, Bool.not_eq_true, Bool.not_eq_false] at hgoing
  exact ⟨start, hp, hgoing.1, hgoing.2, hclean, hlogged, hfs⟩

theorem Executed.broke {w w' : World} {fs : FileSystem} {run : Program.Run} {f : RunFault}
    (h : r.Executed launch cancelled tool input w fs run (some f) w') :
    ∃ start, r.Prepared tool input w start ∧ Logged r.logger run.fs w'.fs ∧
      (r.canDismiss = false → w'.fs = run.fs) ∧
      ((cancelled = true ∨ r.timing.processTimeout.isPositive = false) ∧ run.fs = start ∨
        run = launch start (r.commandFor tool input w.fs) ∧ run.ending ≠ .clean) := by
  obtain ⟨start, hp, hfault, hlogged, hfs, hrun⟩ := h.process
  refine ⟨start, hp, hlogged, hfs, ?_⟩
  split at hrun
  · rename_i hheld
    exact .inl ⟨hheld, hrun⟩
  · rename_i hgoing
    refine .inr ⟨hrun, fun hclean => ?_⟩
    rw [← r.commandFor_timeout tool input w.fs] at hgoing
    rw [runFault?_eq_none.mpr ⟨hgoing, hclean⟩] at hfault
    cases hfault

theorem assemble_about (w : World) :
    (r.assemble launch cancelled tool input w).1.tool = tool.name ∧
      (r.assemble launch cancelled tool input w).1.base = Path.stem input := by
  cases r.assemble_account launch cancelled tool input w with
  | noTool _ eq | noInput _ _ eq | stuck _ _ _ eq | broken _ eq | uncollected _ _ _ eq
  | delivered _ _ _ _ eq =>
    simp only [eq, failed, succeeded, opened, closed, and_self]

theorem assemble_tool (w : World) :
    (r.assemble launch cancelled tool input w).1.tool = tool.name := (assemble_about w).1

theorem assemble_course (hd : r.canDismiss = false) (w : World) :
    ∃ fs', r.Course launch cancelled tool input w
        (r.assemble launch cancelled tool input w).1.success fs' ∧
      Logged r.logger fs' (r.assemble launch cancelled tool input w).2.fs := by
  have hl : (r.runLogger tool (Path.stem input)).file = r.logger.file := rfl
  cases r.assemble_account launch cancelled tool input w with
  | noTool h eq =>
    rw [eq]
    exact ⟨w.fs, .missing (.inl h), failed_logged hl _ _ _⟩
  | noInput _ h eq =>
    rw [eq]
    exact ⟨w.fs, .missing (.inr h), failed_logged hl _ _ _⟩
  | stuck _ hsource h eq =>
    rw [eq]
    exact ⟨w.fs, .stuck hsource h, failed_logged hl _ _ _⟩
  | @broken fs run f w' hx eq =>
    obtain ⟨start, hp, _, hfs, ⟨hheld, hrun⟩ | ⟨rfl, hclean⟩⟩ := hx.broke
    · rw [eq]
      refine ⟨w'.fs, ?_, failed_logged hl _ f w'⟩
      rw [hfs hd, hrun]
      exact .held hp hheld
    · rw [eq]
      refine ⟨w'.fs, ?_, failed_logged hl _ f w'⟩
      rw [hfs hd]
      exact .broken hp hclean
  | @uncollected fs run w' got f hx hgot hf eq =>
    obtain ⟨start, hp, _, _, hclean, _, hfs⟩ := hx.ended
    rw [hfs hd] at hgot
    have hcourse : r.Course launch cancelled tool input w (got.fault.isNone && got.path.isSome)
        got.fs := .ended hp hclean hgot
    rw [hf] at hcourse
    rw [eq]
    exact ⟨got.fs, hcourse, failed_logged hl _ _ { w' with fs := got.fs }⟩
  | @delivered fs run w' got path hx hgot hf hpath eq =>
    obtain ⟨start, hp, _, _, hclean, _, hfs⟩ := hx.ended
    rw [hfs hd] at hgot
    have hcourse : r.Course launch cancelled tool input w (got.fault.isNone && got.path.isSome)
        got.fs := .ended hp hclean hgot
    rw [hf, hpath] at hcourse
    rw [eq]
    exact ⟨got.fs, hcourse, logged_of_file_eq hl { w' with fs := got.fs } _⟩

end Runner

end Crosscheck
