import Crosscheck.Proofs.Session.Layout

namespace Crosscheck

open FileSystem

/-- What the process of a tool makes of a source: whether it ends cleanly, and what it writes. -/
structure Program.Outcome where
  clean : Bool
  artifact : Option ByteArray
  byproduct : String → Option ByteArray

def Program.Outcome.file (o : Outcome) (artifactExt e : String) : Option ByteArray :=
  if e = artifactExt then o.artifact else o.byproduct e

def Program.Outcome.succeeds (o : Outcome) : Bool := o.clean && o.artifact.isSome

theorem Program.Outcome.succeeds_iff {o : Outcome} :
    o.succeeds = true ↔ o.clean = true ∧ ∃ artifact, o.artifact = some artifact := by
  rw [succeeds, Bool.and_eq_true, Option.isSome_iff_exists]

/-- A process does what its outcome says: it writes regular files beside its source, over files that
are there or as new ones, and touches nothing else. -/
structure Program.Performs (o : Outcome) (dir : Location) (base artifactExt : String)
    (byproducts : List String) (fs : FileSystem) (run : Run) : Prop where
  clean : run.ending = .clean ↔ o.clean = true
  terms : run.fs.terms = fs.terms
  nextId : fs.nextId ≤ run.fs.nextId
  written : ∀ e ∈ artifactExt :: byproducts, ∀ bytes, o.file artifactExt e = some bytes →
    ∃ id mode, run.fs.get? (dir ++ [base ++ e]) = some (.file id mode bytes) ∧
      (e = artifactExt → fs.canRead (.file id mode bytes) = true) ∧
      (fs.nextId ≤ id ∨ ∃ mode' old, fs.get? (dir ++ [base ++ e]) = some (.file id mode' old))
  rest : ∀ l, (∀ e ∈ artifactExt :: byproducts, (o.file artifactExt e).isSome = true →
    l ≠ dir ++ [base ++ e]) → run.fs.get? l = fs.get? l

namespace Session

/-- The processes that are run for a corpus have the given outcomes, which depend on the tool and on
the name and the bytes of the source alone. -/
def Modelled (c : Config) (logger : Log.Logger) (launch : Program.Launch)
    (outcome : Tool → String → ByteArray → Program.Outcome) (fs₁ : FileSystem) : Prop :=
  ∀ t ∈ c.tools, ∀ name, Path.ext name = c.corpusExt →
    (fs₁.get? (c.corpusLoc ++ [name])).isSome = true → ∀ fs id mode bytes,
    fs.OpenDir c.corpusLoc → (∀ s, fs.Only (c.corpusLoc ++ [s]) fun n => n.isRegular = true) →
    fs.get? (c.corpusLoc ++ [name]) = some (.file id mode bytes) →
    Program.Performs (outcome t name bytes) c.corpusLoc (Path.trimEnd name c.corpusExt)
      c.artifactExt t.byproducts fs (launch fs
        ((runnerOf logger c).command t t.path (Path.toLocation (c.corpusLoc ++ [name]))))

structure IsSource (c : Config) (fs₁ : FileSystem) (name : String) : Prop where
  nameable : Nameable (c.corpusLoc ++ [name])
  ext : Path.ext name = c.corpusExt
  there : (fs₁.get? (c.corpusLoc ++ [name])).isSome = true

structure Staged (c : Config) (logger : Log.Logger) (launch : Program.Launch)
    (outcome : Tool → String → ByteArray → Program.Outcome) (fs₁ : FileSystem) : Prop where
  accepted : c.Accepted
  apart : c.Apart
  log : ∀ id, logger.file = some id → id < fs₁.nextId
  copies : ∀ loc into, fs₁.lapses loc into = none
  formed : ∀ name, IsSource c fs₁ name → ∀ t ∈ c.tools, Formed c name t
  modelled : Modelled c logger launch outcome fs₁

/-- The bytes that a process can have found in a source: those that were there at first, and after
them what was logged. -/
def Seen (logger : Log.Logger) (fs₁ : FileSystem) (loc : Location) (bytes : ByteArray) : Prop :=
  ∃ id mode old more, fs₁.get? loc = some (.file id mode old) ∧ bytes = old ++ more ∧
    (logger.file ≠ some id → more = ByteArray.empty)

def Delivered (t : Tool) (n : String) (bytes : ByteArray) (fs : FileSystem) : Prop :=
  (fs.get? t.outputLoc).isSome = true ∧
    ∃ id mode, fs.get? (t.outputLoc ++ [n]) = some (.file id mode bytes)

theorem Delivered.kept {t : Tool} {n : String} {bytes : ByteArray} {fs fs' : FileSystem}
    (h : Delivered t n bytes fs)
    (hmade : (fs.get? t.outputLoc).isSome = true → (fs'.get? t.outputLoc).isSome = true)
    (hkept : fs'.get? (t.outputLoc ++ [n]) = fs.get? (t.outputLoc ++ [n])) :
    Delivered t n bytes fs' := by
  obtain ⟨hdir, id, mode, hfile⟩ := h
  exact ⟨hmade hdir, id, mode, hkept.trans hfile⟩

/-- From the first file system to the second, nothing was lost that was ready, and the output
directories hold what they held, one artifact apart. -/
structure Carries (c : Config) (logger : Log.Logger) (fs₁ : FileSystem) (but : Option (Tool × String))
    (fs fs' : FileSystem) : Prop where
  ready : Ready c logger fs₁ fs'
  made : ∀ u ∈ c.tools, (fs.get? u.outputLoc).isSome = true → (fs'.get? u.outputLoc).isSome = true
  kept : ∀ u ∈ c.tools, ∀ n, but ≠ some (u, n) →
    fs'.get? (u.outputLoc ++ [n]) = fs.get? (u.outputLoc ++ [n])

section Carries

variable {c : Config} {logger : Log.Logger} {fs₁ fs fs₂ fs' : FileSystem}
  {but : Option (Tool × String)}

theorem Carries.refl (hr : Ready c logger fs₁ fs) : Carries c logger fs₁ but fs fs :=
  ⟨hr, fun _ _ h => h, fun _ _ _ _ => rfl⟩

theorem Carries.trans (h : Carries c logger fs₁ but fs fs₂) (h' : Carries c logger fs₁ but fs₂ fs') :
    Carries c logger fs₁ but fs fs' :=
  ⟨h'.ready, fun u hu hd => h'.made u hu (h.made u hu hd),
    fun u hu n hne => (h'.kept u hu n hne).trans (h.kept u hu n hne)⟩

theorem Carries.mono (h : Carries c logger fs₁ none fs fs') (target : Tool × String) :
    Carries c logger fs₁ (some target) fs fs' :=
  ⟨h.ready, h.made, fun u hu n _ => h.kept u hu n nofun⟩

theorem Carries.delivered (h : Carries c logger fs₁ but fs fs') {u : Tool} (hu : u ∈ c.tools)
    {n : String} (hne : but ≠ some (u, n)) {bytes : ByteArray} (hd : Delivered u n bytes fs) :
    Delivered u n bytes fs' := hd.kept (h.made u hu) (h.kept u hu n hne)

variable (ha : c.Apart) (hr : Ready c logger fs₁ fs)

include ha hr

theorem Step.carries_of_mem (htarget : ∀ t n, but = some (t, n) → t ∈ c.tools)
    (h : Step c logger but fs fs') : Carries c logger fs₁ but fs fs' := by
  refine ⟨h.ready ha htarget hr, fun u hu hd => ?_, fun u hu n hne => h.kept ha htarget hr hu hne⟩
  rw [h.road ha htarget hr hu (List.prefix_refl _)]
  exact hd

theorem Step.carries (h : Step c logger none fs fs') : Carries c logger fs₁ none fs fs' :=
  h.carries_of_mem ha hr nofun

theorem Step.carries_target {t : Tool} {n : String} (ht : t ∈ c.tools)
    (h : Step c logger (some (t, n)) fs fs') : Carries c logger fs₁ (some (t, n)) fs fs' := by
  refine h.carries_of_mem ha hr ?_
  rintro u m hu
  cases hu
  exact ht

theorem Carries.built {t : Tool} (ht : t ∈ c.tools) (hb : Built t.outputLoc fs fs') :
    Carries c logger fs₁ none fs fs' := by
  refine ⟨hr.built ha ht hb, fun u _ hd => ?_, fun u hu n _ => hb.rest _ fun hl => ?_⟩
  · obtain ⟨m, hm⟩ := Option.isSome_iff_exists.mp hd
    rw [hb.toFurnished.get?_some hm]
    rfl
  · have hut := ha.out_out u hu t ht ((List.prefix_append _ [n]).trans hl)
    subst u
    exact not_prefix_of_append _ _ hl

end Carries

section Paths

variable {r : Runner} {t : Tool} {loc : Location} {name : String}
  (hloc : ∀ s ∈ loc ++ [name], Path.IsName s)

include hloc

theorem sourcePath_toLocation (fs : FileSystem) :
    Runner.sourcePath fs (Path.toLocation (loc ++ [name])) = Path.toLocation (loc ++ [name]) := by
  rw [Runner.sourcePath, Path.abs_of_isAbs (Path.isAbs_toLocation _), Path.names_toLocation hloc]

theorem dir_sourcePath (fs : FileSystem) :
    Path.dir (Runner.sourcePath fs (Path.toLocation (loc ++ [name]))) = Path.toLocation loc := by
  rw [sourcePath_toLocation hloc, Path.dir_toLocation (fun s hs => hloc s (by simp [hs]))
    (hloc name (by simp))]

theorem leftPath_toLocation (fs : FileSystem)
    (hn : Path.IsName (Path.trimEnd name (Path.ext name) ++ r.artifactExt)) :
    r.leftPath (Path.toLocation (loc ++ [name])) fs =
      Path.toLocation (loc ++ [Path.trimEnd name (Path.ext name) ++ r.artifactExt]) := by
  rw [Runner.leftPath, dir_sourcePath hloc, Path.stem_toLocation (hloc name (by simp)),
    Path.join_toLocation (fun s hs => hloc s (by simp [hs])) hn]

theorem commandFor_toLocation (fs : FileSystem) (ht : Path.IsClean t.path) :
    r.commandFor t (Path.toLocation (loc ++ [name])) fs =
      r.command t t.path (Path.toLocation (loc ++ [name])) := by
  rw [Runner.commandFor, sourcePath_toLocation hloc, Path.abs_of_isAbs ht.1, ← ht.eq_toLocation]

end Paths

section Run

variable {c : Config} {logger : Log.Logger} {launch : Program.Launch}
  {outcome : Tool → String → ByteArray → Program.Outcome} {fs₁ fs : FileSystem} {t : Tool}
  {name : String} (hs : Staged c logger launch outcome fs₁) (hsource : IsSource c fs₁ name)
  (ht : t ∈ c.tools)

theorem Ready.source (hr : Ready c logger fs₁ fs) (hsource : IsSource c fs₁ name) :
    ∃ id mode bytes, fs.get? (c.corpusLoc ++ [name]) = some (.file id mode bytes) ∧
      Seen logger fs₁ (c.corpusLoc ++ [name]) bytes := by
  obtain ⟨n, hn⟩ := Option.isSome_iff_exists.mp hsource.there
  have hg := hr.sources name hsource.ext
  rw [hn] at hg
  cases n with
  | file id mode old =>
    obtain ⟨more, hmore, hlog⟩ := hg.file
    exact ⟨id, mode, old ++ more, hmore, id, mode, old, more, hn, rfl, hlog⟩
  | dir | link | fifo =>
    have hsame := hg.eq fun _ _ _ h => by cases h
    exact absurd (hr.beside name _ hsame) Bool.false_ne_true

include hs hsource ht

theorem ext_beside {e : String} (he : e ∈ c.artifactExt :: t.byproducts) :
    Path.ext (Path.trimEnd name c.corpusExt ++ e) ≠ c.corpusExt := by
  have hslash : '/' ∉ (Path.trimEnd name c.corpusExt).toList := fun h =>
    hsource.nameable.last.1.no_slash (Path.mem_trimEnd h)
  rw [(hs.apart.extensions t ht e he).ext_append hslash]
  exact hs.apart.others t ht e he

theorem removeStale_carries (hr : Ready c logger fs₁ fs) :
    ∃ fs', Runner.removeStale fs (Path.toLocation (c.corpusLoc ++ [artifactName c name])) = .ok fs' ∧
      Carries c logger fs₁ none fs fs' ∧ fs'.get? (c.corpusLoc ++ [artifactName c name]) = none := by
  have hremove := hr.corpus.passable.remove (hs.formed name hsource t ht).artifact hr.corpus.change
    fun m hm => isDir_of_isRegular (hr.beside _ m hm)
  rw [Runner.removeStale, hremove]
  by_cases hg : (fs.get? (c.corpusLoc ++ [artifactName c name])).isSome = true
  · rw [if_pos hg]
    have hstep : Step c logger none fs (fs.erase (c.corpusLoc ++ [artifactName c name])) := by
      refine .of_beside rfl (Nat.le_refl _) fun l => ?_
      by_cases hl : l = c.corpusLoc ++ [artifactName c name]
      · refine .inr ⟨_, hl, ext_beside hs hsource ht List.mem_cons_self, fun m hm => ?_⟩
        rw [hl, get?_erase, if_pos rfl] at hm
        cases hm
      · exact .inl (by rw [get?_erase, if_neg hl])
    exact ⟨_, rfl, hstep.carries hs.apart hr, by rw [get?_erase, if_pos rfl]⟩
  · rw [if_neg hg]
    refine ⟨fs, rfl, .refl hr, ?_⟩
    simpa using hg

theorem performs_carries (hr : Ready c logger fs₁ fs) {bytes : ByteArray} {run : Program.Run}
    (hp : Program.Performs (outcome t name bytes) c.corpusLoc (Path.trimEnd name c.corpusExt)
      c.artifactExt t.byproducts fs run) : Carries c logger fs₁ none fs run.fs := by
  have hstep : Step c logger none fs run.fs := by
    refine .of_beside hp.terms hp.nextId fun l => ?_
    by_cases hl : ∀ e ∈ c.artifactExt :: t.byproducts,
        ((outcome t name bytes).file c.artifactExt e).isSome = true →
        l ≠ c.corpusLoc ++ [Path.trimEnd name c.corpusExt ++ e]
    · exact .inl (hp.rest l hl)
    · push Not at hl
      obtain ⟨e, he, hsome, rfl⟩ := hl
      obtain ⟨b, hb⟩ := Option.isSome_iff_exists.mp hsome
      obtain ⟨id, mode, hfile, _⟩ := hp.written e he b hb
      refine .inr ⟨_, rfl, ext_beside hs hsource ht he, fun m hm => ?_⟩
      rw [hfile, Option.some.injEq] at hm
      rw [← hm]
      rfl
  exact hstep.carries hs.apart hr

omit hs hsource ht in
/-- A process that is started without an artifact leaves the one that its outcome says, or none. -/
theorem performs_artifact {bytes : ByteArray} {run : Program.Run}
    (hp : Program.Performs (outcome t name bytes) c.corpusLoc (Path.trimEnd name c.corpusExt)
      c.artifactExt t.byproducts fs run)
    (hnone : fs.get? (c.corpusLoc ++ [artifactName c name]) = none)
    (hlog : ∀ id, logger.file = some id → id < fs.nextId) :
    ((outcome t name bytes).artifact = none ∧
      run.fs.get? (c.corpusLoc ++ [artifactName c name]) = none) ∨
    ∃ b id mode, (outcome t name bytes).artifact = some b ∧
      run.fs.get? (c.corpusLoc ++ [artifactName c name]) = some (.file id mode b) ∧
      run.fs.canRead (.file id mode b) = true ∧ logger.file ≠ some id := by
  have hfile : (outcome t name bytes).file c.artifactExt c.artifactExt =
      (outcome t name bytes).artifact := by rw [Program.Outcome.file, if_pos rfl]
  cases hartifact : (outcome t name bytes).artifact with
  | none =>
    refine .inl ⟨rfl, (hp.rest _ fun e he hsome hl => ?_).trans hnone⟩
    have hext : c.artifactExt = e := by simpa [artifactName] using hl
    rw [← hext, hfile, hartifact] at hsome
    cases hsome
  | some b =>
    rw [hartifact] at hfile
    obtain ⟨id, mode, hg, hread, hid⟩ := hp.written c.artifactExt List.mem_cons_self b hfile
    refine .inr ⟨b, id, mode, rfl, hg, by rw [canRead_of_terms hp.terms, hread rfl], fun hlogged => ?_⟩
    rcases hid with hid | ⟨_, _, hold⟩
    · exact absurd (hlog id hlogged) (Nat.not_lt.mpr hid)
    · rw [← artifactName, hnone] at hold
      cases hold

theorem collect_carries (hr : Ready c logger fs₁ fs) {id mode : Nat} {bytes : ByteArray}
    (hg : fs.get? (c.corpusLoc ++ [artifactName c name]) = some (.file id mode bytes))
    (hread : fs.canRead (.file id mode bytes) = true) (hid : logger.file ≠ some id)
    (hplace : fs.get? (t.outputLoc ++ [artifactName c name]) = none) :
    ∃ fs' path, Artifact.collect fs (Path.toLocation c.corpusLoc) (Path.trimEnd name c.corpusExt)
        t.outputDir c.artifactExt t.byproducts = ⟨fs', some path, none⟩ ∧
      Carries c logger fs₁ (some (t, artifactName c name)) fs fs' ∧
      Delivered t (artifactName c name) bytes fs' := by
  have ha := hs.apart
  have hformed := hs.formed name hsource t ht
  obtain ⟨fs₂, fs₃, fs₄, hbuilt, hmoved, hdiscarded, hcollect⟩ :=
    @Artifact.collect_delivers fs c.corpusLoc t.outputLoc (Path.trimEnd name c.corpusExt)
      c.artifactExt t.byproducts hr.corpus (ha.out_corpus t ht) (ha.corpus_out t ht)
      hformed.artifact hformed.place (fun e he => hformed.beside e (List.mem_cons_of_mem _ he))
      (fun _ _ m hm => isDir_of_isRegular (hr.beside _ m hm)) id mode bytes hg (fun _ => hread) hplace
      (fun loc into => by rw [lapses_of_terms hr.terms, hs.copies]) (hr.roads t ht)
      (ha.outputLoc_ne_nil ht)
  have hf := hbuilt.toFurnished
  have hcarries₂ := Carries.built ha hr ht hbuilt
  have hg₂ : fs₂.get? (c.corpusLoc ++ [artifactName c name]) = some (.file id mode bytes) :=
    hf.get?_some hg
  obtain ⟨hstep₃, id', mode', harrived⟩ := Step.of_moved
    (fun i hi => Nat.lt_of_lt_of_le (hs.log i hi) hcarries₂.ready.nextId) hmoved
    (ext_beside hs hsource ht List.mem_cons_self) hg₂ hid
    (by rw [canRead_of_terms hf.terms, hread])
  have hcarries₃ := hstep₃.carries_target ha hcarries₂.ready ht
  have hstep₄ : Step c logger none fs₃ fs₄ := .of_discarded hdiscarded
    (fun e he => ext_beside hs hsource ht (List.mem_cons_of_mem _ he)) hcarries₃.ready.beside
  have hcarries₄ := hstep₄.carries ha hcarries₃.ready
  have hdelivered : Delivered t (artifactName c name) bytes fs₃ :=
    ⟨hcarries₃.made t ht (hbuilt.way _ (List.prefix_refl _)), id', mode', harrived⟩
  rw [(ha.out t ht).eq_toLocation]
  refine ⟨fs₄, _, hcollect, ?_, hcarries₄.delivered ht nofun hdelivered⟩
  exact (hcarries₂.mono _).trans (hcarries₃.trans (hcarries₄.mono _))

theorem leftPath_eq (fs : FileSystem) :
    (runnerOf logger c).leftPath (Path.toLocation (c.corpusLoc ++ [name])) fs =
      Path.toLocation (c.corpusLoc ++ [artifactName c name]) := by
  have hn := (hs.formed name hsource t ht).artifact.last
  rw [leftPath_toLocation hsource.nameable.isName _ (by rw [hsource.ext]; exact hn.1), hsource.ext,
    runnerOf, artifactName]

theorem prepared_carries {w : World} (hr : Ready c logger fs₁ w.fs)
    (hp : (runnerOf logger c).Prepared t (Path.toLocation (c.corpusLoc ++ [name])) w fs) :
    Carries c logger fs₁ none w.fs fs ∧ fs.get? (c.corpusLoc ++ [artifactName c name]) = none := by
  obtain ⟨fs', hstale, hcarries, hnone⟩ := removeStale_carries hs hsource ht hr
  obtain ⟨fs'', hstale', hlogged⟩ := hp.stale
  rw [leftPath_eq hs hsource ht, hstale] at hstale'
  cases hstale'
  have hlog : Logged logger fs' fs := hlogged
  refine ⟨hcarries.trans ((Step.of_logged hlog).carries hs.apart hcarries.ready), ?_⟩
  rw [hlog.get?_eq, hnone]
  rw [hnone]
  nofun

theorem startable {w : World} (hr : Ready c logger fs₁ w.fs) :
    w.fs.fileExists (Path.abs (Runner.workingDir w.fs) t.path) = true ∧
      w.fs.fileExists (Runner.sourcePath w.fs (Path.toLocation (c.corpusLoc ++ [name]))) = true := by
  refine ⟨?_, ?_⟩
  · rw [Path.abs_of_isAbs (hs.apart.exe t ht).1]
    exact (hr.exe t ht).fileExists
  · obtain ⟨id, mode, bytes, hg, _⟩ := hr.source hsource
    have hstat := hr.corpus.passable.stat hsource.nameable (hr.beside name).linkAt
    rw [hg] at hstat
    rw [sourcePath_toLocation hsource.nameable.isName]
    exact fileExists_eq_true.mpr ⟨_, hstat, rfl⟩

theorem prepared_performs {w : World} (hr : Ready c logger fs₁ w.fs)
    (hp : (runnerOf logger c).Prepared t (Path.toLocation (c.corpusLoc ++ [name])) w fs) :
    ∃ bytes, Seen logger fs₁ (c.corpusLoc ++ [name]) bytes ∧
      Program.Performs (outcome t name bytes) c.corpusLoc (Path.trimEnd name c.corpusExt)
        c.artifactExt t.byproducts fs (launch fs ((runnerOf logger c).commandFor t
          (Path.toLocation (c.corpusLoc ++ [name])) w.fs)) := by
  have hready := (prepared_carries hs hsource ht hr hp).1.ready
  obtain ⟨id, mode, bytes, hg, hseen⟩ := hready.source hsource
  have hperf := hs.modelled t ht name hsource.ext hsource.there _ id mode bytes
    hready.corpus hready.beside hg
  rw [← commandFor_toLocation hsource.nameable.isName w.fs (hs.apart.exe t ht)] at hperf
  exact ⟨bytes, hseen, hperf⟩

theorem collect_missing (hr : Ready c logger fs₁ fs)
    (hnone : fs.get? (c.corpusLoc ++ [artifactName c name]) = none) :
    ∃ e, Artifact.collect fs (Path.toLocation c.corpusLoc) (Path.trimEnd name c.corpusExt)
      t.outputDir c.artifactExt t.byproducts = ⟨fs, none, some e⟩ := by
  have hn := (hs.formed name hsource t ht).artifact
  have hstat := hr.corpus.passable.stat hn (hr.beside _).linkAt
  rw [hnone] at hstat
  rw [Artifact.collect, ← artifactName, Path.join_toLocation hn.init.isName hn.last.1, hstat]
  exact ⟨_, rfl⟩

theorem collect_outcome (hr : Ready c logger fs₁ fs)
    (hnone : fs.get? (c.corpusLoc ++ [artifactName c name]) = none)
    (hplace : fs.get? (t.outputLoc ++ [artifactName c name]) = none) {bytes : ByteArray}
    {run : Program.Run} (hp : Program.Performs (outcome t name bytes) c.corpusLoc
      (Path.trimEnd name c.corpusExt) c.artifactExt t.byproducts fs run)
    {got : Artifact.Collected} (hgot : Artifact.collect run.fs (Path.toLocation c.corpusLoc)
      (Path.trimEnd name c.corpusExt) t.outputDir c.artifactExt t.byproducts = got) :
    (got.fault.isNone && got.path.isSome) = (outcome t name bytes).artifact.isSome ∧
      Carries c logger fs₁ (some (t, artifactName c name)) fs got.fs ∧
      ∀ b, (outcome t name bytes).artifact = some b → Delivered t (artifactName c name) b got.fs := by
  have hcarries := performs_carries hs hsource ht hr hp
  rcases performs_artifact hp hnone fun i hi => Nat.lt_of_lt_of_le (hs.log i hi) hr.nextId with
    ⟨hartifact, hleft⟩ | ⟨b, id, mode, hartifact, hfile, hread, hid⟩
  · obtain ⟨e, he⟩ := collect_missing hs hsource ht hcarries.ready hleft
    rw [he] at hgot
    subst got
    rw [hartifact]
    exact ⟨rfl, hcarries.mono _, nofun⟩
  · obtain ⟨fs', path, he, hcollected, hdelivered⟩ :=
      collect_carries hs hsource ht hcarries.ready hfile hread hid
        ((hcarries.kept t ht _ nofun).trans hplace)
    rw [he] at hgot
    subst got
    rw [hartifact]
    refine ⟨rfl, (hcarries.mono _).trans hcollected, fun b' hb => ?_⟩
    cases hb
    exact hdelivered

/-- A run comes to what its process comes to. -/
theorem assemble_outcome {w : World} (hr : Ready c logger fs₁ w.fs)
    (hplace : w.fs.get? (t.outputLoc ++ [artifactName c name]) = none) :
    ∃ bytes, Seen logger fs₁ (c.corpusLoc ++ [name]) bytes ∧
      ((runnerOf logger c).assemble launch false t (Path.toLocation (c.corpusLoc ++ [name])) w).1.success =
        (outcome t name bytes).succeeds ∧
      Carries c logger fs₁ (some (t, artifactName c name)) w.fs
        ((runnerOf logger c).assemble launch false t (Path.toLocation (c.corpusLoc ++ [name])) w).2.fs ∧
      ∀ b, (outcome t name bytes).clean = true → (outcome t name bytes).artifact = some b →
        Delivered t (artifactName c name) b
          ((runnerOf logger c).assemble launch false t
            (Path.toLocation (c.corpusLoc ++ [name])) w).2.fs := by
  have hnames := hsource.nameable.isName
  obtain ⟨fs', hcourse, hlogged⟩ := @Runner.assemble_course (runnerOf logger c) launch false t
    (Path.toLocation (c.corpusLoc ++ [name])) rfl w
  have hlog : Logged logger fs' ((runnerOf logger c).assemble launch false t
    (Path.toLocation (c.corpusLoc ++ [name])) w).2.fs := hlogged
  generalize (runnerOf logger c).assemble launch false t (Path.toLocation (c.corpusLoc ++ [name])) w =
    result at hcourse hlog ⊢
  generalize result.1.success = ok at hcourse ⊢
  have hlast : ∀ {but}, Carries c logger fs₁ but w.fs fs' →
      Carries c logger fs₁ none fs' result.2.fs := fun hc =>
    (Step.of_logged hlog).carries hs.apart hc.ready
  cases hcourse with
  | missing h =>
    obtain ⟨hexe, hinput⟩ := startable hs hsource ht hr
    rw [hexe, hinput] at h
    exact absurd h (by simp)
  | stuck _ h =>
    obtain ⟨_, hstale, _⟩ := removeStale_carries hs hsource ht hr
    rw [leftPath_eq hs hsource ht, hstale] at h
    cases h
  | held _ h =>
    have hpositive : c.timing.processTimeout.isPositive = true :=
      hs.accepted.timing ("process_timeout", _) (by simp [Timing.fields])
    rcases h with h | h
    · cases h
    · rw [runnerOf, hpositive] at h
      cases h
  | broken hp h =>
    obtain ⟨hcarries, _⟩ := prepared_carries hs hsource ht hr hp
    obtain ⟨bytes, hseen, hperf⟩ := prepared_performs hs hsource ht hr hp
    have hclean : (outcome t name bytes).clean = false := by
      rw [← Bool.not_eq_true, ← hperf.clean]
      exact h
    have hafter := hcarries.trans (performs_carries hs hsource ht hcarries.ready hperf)
    refine ⟨bytes, hseen, ?_, (hafter.trans (hlast hafter)).mono _, fun b hb => ?_⟩
    · rw [Program.Outcome.succeeds, hclean, Bool.false_and]
    · rw [hclean] at hb
      cases hb
  | ended hp h hgot =>
    obtain ⟨hcarries, hnone⟩ := prepared_carries hs hsource ht hr hp
    obtain ⟨bytes, hseen, hperf⟩ := prepared_performs hs hsource ht hr hp
    rw [dir_sourcePath hnames, Path.stem_toLocation hsource.nameable.last.1, hsource.ext] at hgot
    obtain ⟨hok, hcollected, hdelivered⟩ := collect_outcome hs hsource ht hcarries.ready hnone
      ((hcarries.kept t ht _ (by simp)).trans hplace) hperf hgot
    have hafter := (hcarries.mono _).trans hcollected
    refine ⟨bytes, hseen, ?_, hafter.trans ((hlast hafter).mono _), fun b _ hb => ?_⟩
    · rw [Program.Outcome.succeeds, hperf.clean.mp h, Bool.true_and]
      exact hok
    · exact (hlast hafter).delivered ht (by simp) (hdelivered b hb)

end Run

end Session

end Crosscheck
