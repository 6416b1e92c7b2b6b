import Crosscheck.Proofs.Session.Verdict

namespace Crosscheck

open FileSystem

/-- A process changes nothing but the entries of one directory, and makes regular files of them. -/
structure Program.Confined (dir : Location) (fs fs' : FileSystem) : Prop where
  terms : fs'.terms = fs.terms
  get? : ∀ l, fs'.get? l = fs.get? l ∨
    ∃ s, l = dir ++ [s] ∧ fs'.Only l fun n => n.isRegular = true

namespace Session

/-- An output directory holds regular files of the given names and nothing else. Without a name
there is no such directory. -/
structure Contents (t : Tool) (names : List String) (fs : FileSystem) : Prop where
  dir : fs.get? t.outputLoc = if names = [] then none else some (.dir newDirMode)
  files : ∀ n ∈ names, (fs.get? (t.outputLoc ++ [n])).any Node.isRegular = true
  rest : ∀ l, t.outputLoc <+: l → l ≠ t.outputLoc → (∀ n ∈ names, l ≠ t.outputLoc ++ [n]) →
    fs.get? l = none

/-- What each run of a tool can rely on, and leaves. -/
structure Tidy (c : Config) (fs₁ : FileSystem) (names : Tool → List String) (fs : FileSystem) :
    Prop where
  terms : fs.terms = fs₁.terms
  corpus : fs.OpenDir c.corpusLoc
  beside : ∀ s, fs.Only (c.corpusLoc ++ [s]) fun n => n.isDir = false
  above : ∀ t ∈ c.tools, ∀ x, x <+: t.outputLoc → x ≠ t.outputLoc →
    fs.Only x fun n => n.isDir = true
  contents : ∀ t ∈ c.tools, Contents t (names t) fs

def deliver (names : Tool → List String) : Option (Tool × String) → Tool → List String
  | none => names
  | some (t, n) => Function.update names t (names t ++ [n])

theorem deliver_of_ne {names : Tool → List String} {target : Option (Tool × String)} {t : Tool}
    (h : ∀ n, target ≠ some (t, n)) : deliver names target t = names t := by
  cases target with
  | none => rfl
  | some p => exact Function.update_of_ne (fun he => h p.2 (by rw [he])) ..

/-- A change beside the sources, in the log, of the directories above an output directory, or by one
artifact that is delivered. -/
structure Shift (c : Config) (logger : Log.Logger) (target : Option (Tool × String))
    (fs fs' : FileSystem) : Prop where
  terms : fs'.terms = fs.terms
  get? : ∀ l, Grown logger (fs.get? l) (fs'.get? l) ∨
    (∃ s, l = c.corpusLoc ++ [s] ∧ fs'.Only l fun n => n.isDir = false) ∨
    (∃ t ∈ c.tools, l <+: t.outputLoc ∧ l ≠ t.outputLoc ∧ fs.get? l = none ∧
      fs'.get? l = some (.dir newDirMode)) ∨
    ∃ t n, target = some (t, n) ∧ (l = t.outputLoc ∨ l = t.outputLoc ++ [n])
  arrived : ∀ t n, target = some (t, n) → fs'.get? t.outputLoc = some (.dir newDirMode) ∧
    (fs'.get? (t.outputLoc ++ [n])).any Node.isRegular = true

section Shift

variable {c : Config} {logger : Log.Logger} {fs₁ fs fs' : FileSystem}
  {target : Option (Tool × String)} {names : Tool → List String} {t : Tool} (hc : c.Separate)
  (htarget : ∀ t n, target = some (t, n) → t ∈ c.tools) (h : Shift c logger target fs fs')

theorem out_of_delivered {l : Location} {n : String} (h : l = t.outputLoc ∨ l = t.outputLoc ++ [n]) :
    t.outputLoc <+: l := by
  rcases h with rfl | rfl
  · exact List.prefix_refl _
  · exact List.prefix_append _ _

include hc htarget h

/-- What is in an output directory is changed by the log alone, or by what is delivered. -/
theorem Shift.grown_out (ht : t ∈ c.tools) {l : Location} (hl : t.outputLoc <+: l)
    (hne : ∀ n, target = some (t, n) → l ≠ t.outputLoc ∧ l ≠ t.outputLoc ++ [n]) :
    Grown logger (fs.get? l) (fs'.get? l) := by
  rcases h.get? l with hg | ⟨s, he, _⟩ | ⟨u, hu, hlu, hne', _⟩ | ⟨u, n, hn, he⟩
  · exact hg
  · exact absurd he (beside_ne_out hc ht hl)
  · have htu := hc.out_out t ht u hu (hl.trans hlu)
    subst u
    exact absurd (hlu.eq_of_length_le hl.length_le) hne'
  · have htu : t = u := by
      rcases he with rfl | rfl
      · exact hc.out_out t ht u (htarget u n hn) hl
      · rcases List.prefix_concat_iff.mp hl with he | hl
        · refine (hc.out_out u (htarget u n hn) t ht ?_).symm
          rw [he]
          exact List.prefix_append _ _
        · exact hc.out_out t ht u (htarget u n hn) hl
    subst u
    obtain ⟨hdir, hfile⟩ := hne n hn
    exact (he.elim hdir hfile).elim

theorem Shift.contents (ht : t ∈ c.tools) (hold : Contents t (names t) fs) :
    Contents t (deliver names target t) fs' := by
  have hregular : ∀ {o o' : Option Node}, Grown logger o o' → o.any Node.isRegular = true →
      o'.any Node.isRegular = true := by
    intro o o' hg ho
    cases o with
    | none => cases ho
    | some m =>
      cases m with
      | file id mode bytes =>
        obtain ⟨more, rfl, _⟩ := hg.file
        rfl
      | dir | link | fifo => cases ho
  by_cases hother : ∀ n, target ≠ some (t, n)
  · have hgrown : ∀ l, t.outputLoc <+: l → Grown logger (fs.get? l) (fs'.get? l) := fun l hl =>
      h.grown_out hc htarget ht hl fun n hn => absurd hn (hother n)
    rw [deliver_of_ne hother]
    refine ⟨?_, fun n hn => ?_, fun l hl hne hn => ?_⟩
    · rw [← hold.dir]
      refine (hgrown _ (List.prefix_refl _)).eq fun id mode bytes hfile => ?_
      rw [hold.dir] at hfile
      split at hfile <;> cases hfile
    · exact hregular (hgrown _ (List.prefix_append _ _)) (hold.files n hn)
    · have hnone := hold.rest l hl hne hn
      rw [(hgrown l hl).eq (fun _ _ _ hfile => by rw [hnone] at hfile; cases hfile), hnone]
  · push Not at hother
    obtain ⟨n, rfl⟩ := hother
    obtain ⟨hdir, hfile⟩ := h.arrived t n rfl
    have hgrown : ∀ l, t.outputLoc <+: l → l ≠ t.outputLoc → l ≠ t.outputLoc ++ [n] →
        Grown logger (fs.get? l) (fs'.get? l) := fun l hl hne hne' =>
      h.grown_out hc htarget ht hl fun m hm => by
        cases hm
        exact ⟨hne, hne'⟩
    have hnew : deliver names (some (t, n)) t = names t ++ [n] := Function.update_self ..
    rw [hnew]
    refine ⟨by rw [hdir, if_neg (by simp)], fun m hm => ?_, fun l hl hne hm => ?_⟩
    · by_cases hmn : m = n
      · rw [hmn]
        exact hfile
      · have hm' : m ∈ names t := by simpa [hmn] using hm
        exact hregular (hgrown _ (List.prefix_append _ _) (by simp) (by simpa using hmn))
          (hold.files m hm')
    · have hnone := hold.rest l hl hne fun m hm' => hm m (by simp [hm'])
      rw [(hgrown l hl hne (hm n (by simp))).eq (fun _ _ _ hfile => by rw [hnone] at hfile; cases hfile),
        hnone]

theorem Shift.tidy (hold : Tidy c fs₁ names fs) : Tidy c fs₁ (deliver names target) fs' := by
  refine ⟨h.terms.trans hold.terms, hold.corpus.congr h.terms fun x hx => ?_, fun s m hm => ?_,
    fun t ht x hx hne m hm => ?_, fun t ht => h.contents hc htarget ht (hold.contents t ht)⟩
  · obtain ⟨mode, hmode, _⟩ := enter_eq_ok.mp (hold.corpus.passable x hx)
    rcases h.get? x with hg | ⟨s, rfl, _⟩ | ⟨_, _, _, _, hnone, _⟩ | ⟨t, n, hn, he⟩
    · exact hg.eq fun id mode' bytes hfile => by rw [hmode] at hfile; cases hfile
    · exact absurd hx (not_prefix_of_append _ _)
    · rw [hmode] at hnone
      cases hnone
    · exact absurd ((out_of_delivered he).trans hx) (hc.corpus_out t (htarget t n hn))
  · rcases h.get? (c.corpusLoc ++ [s]) with hg | ⟨_, _, ho⟩ | ⟨t, ht, hl, _⟩ | ⟨t, n, hn, he⟩
    · rcases hg with he | ⟨id, bytes, _, he⟩
      · exact hold.beside s m (he.symm.trans hm)
      · rw [hm] at he
        obtain ⟨m', hm', rfl⟩ := Option.map_eq_some_iff.mp he.symm
        rw [Node.isDir_updated]
        exact hold.beside s m' hm'
    · exact ho m hm
    · exact absurd ((List.prefix_append _ _).trans hl) (hc.out_corpus t ht)
    · exact absurd rfl (beside_ne_out hc (htarget t n hn) (out_of_delivered he))
  · rcases h.get? x with hg | ⟨s, rfl, _⟩ | ⟨_, _, _, _, _, hdir⟩ | ⟨u, n, hn, he⟩
    · rw [hg.eq fun id mode bytes hfile =>
        absurd (hold.above t ht x hx hne _ hfile) Bool.false_ne_true] at hm
      exact hold.above t ht x hx hne m hm
    · exact absurd ((List.prefix_append _ _).trans hx) (hc.out_corpus t ht)
    · rw [hdir, Option.some.injEq] at hm
      rw [← hm]
      rfl
    · have hu := out_of_delivered he
      have hut := hc.out_out u (htarget u n hn) t ht (hu.trans hx)
      subst u
      exact absurd (hx.eq_of_length_le hu.length_le) hne

omit htarget in
theorem Shift.tidy_none (hnone : target = none) (hold : Tidy c fs₁ names fs) : Tidy c fs₁ names fs' := by
  subst target
  exact h.tidy hc (by rintro t n hn; cases hn) hold

end Shift

section Steps

variable {c : Config} {logger : Log.Logger} {fs₁ fs fs' : FileSystem} {t : Tool} {base : String}

theorem Shift.of_logged (h : Logged logger fs fs') : Shift c logger none fs fs' :=
  ⟨h.terms, fun l => .inl (h.grown l), nofun⟩

theorem Shift.of_beside (hterms : fs'.terms = fs.terms)
    (h : ∀ l, fs'.get? l = fs.get? l ∨
      ∃ s, l = c.corpusLoc ++ [s] ∧ fs'.Only l fun n => n.isDir = false) :
    Shift c logger none fs fs' :=
  ⟨hterms, fun l => (h l).elim (fun he => .inl (.inl he)) fun hs => .inr (.inl hs), nofun⟩

theorem Shift.of_confined (logger : Log.Logger) (h : Program.Confined c.corpusLoc fs fs') :
    Shift c logger none fs fs' := by
  refine .of_beside h.terms fun l => (h.get? l).imp_right ?_
  rintro ⟨s, hl, ho⟩
  exact ⟨s, hl, fun m hm => isDir_of_isRegular (ho m hm)⟩

theorem Shift.of_delivers (logger : Log.Logger) (hc : c.Separate) (ht : t ∈ c.tools)
    (hbeside : ∀ s, fs.Only (c.corpusLoc ++ [s]) fun n => n.isDir = false)
    {got : Artifact.Collected}
    (h : Artifact.Delivers fs c.corpusLoc t.outputLoc base c.artifactExt t.byproducts got) :
    Shift c logger (if (got.fault.isNone && got.path.isSome) = true
      then some (t, base ++ c.artifactExt) else none) fs got.fs := by
  cases h with
  | none hok hf hrest =>
    rw [hok, if_neg Bool.false_ne_true]
    refine ⟨hf.terms, fun l => ?_, nofun⟩
    by_cases hl : l <+: t.outputLoc → l = t.outputLoc
    · exact .inl (.inl (hrest l hl))
    · obtain ⟨hp, hne⟩ := Classical.not_imp.mp hl
      rcases hf.get? l with he | ⟨hnone, hdir⟩
      · exact .inl (.inl he)
      · exact .inr (.inr (.inl ⟨t, ht, hp, hne, hnone, hdir⟩))
  | @one fs₂ fs₃ hok hb hnew hm harrived hd =>
    rw [hok, if_pos rfl]
    have hf := hb.toFurnished
    -- by-products are discarded beside the sources alone
    have hout : ∀ {l}, t.outputLoc <+: l → got.fs.get? l = fs₃.get? l := fun hl =>
      hd.rest _ fun _ _ => beside_ne_out hc ht hl
    refine ⟨hd.terms.trans (hm.terms.trans hf.terms), fun l => ?_, ?_⟩
    · by_cases hl : l = t.outputLoc ∨ l = t.outputLoc ++ [base ++ c.artifactExt]
      · exact .inr (.inr (.inr ⟨t, _, rfl, hl⟩))
      by_cases hs : ∃ s, l = c.corpusLoc ++ [s]
      · obtain ⟨s, rfl⟩ := hs
        refine .inr (.inl ⟨s, rfl, fun m hm' => hbeside s m ?_⟩)
        have hmoved := hd.toWithin.get? _ m hm'
        by_cases hleft : c.corpusLoc ++ [s] = c.corpusLoc ++ [base ++ c.artifactExt]
        · rw [hleft, hm.left] at hmoved
          cases hmoved
        · rw [hm.rest _ hleft (not_or.mp hl).2,
            hb.rest _ fun hp => hc.out_corpus t ht ((List.prefix_append _ _).trans hp)] at hmoved
          exact hmoved
      · have hsame : got.fs.get? l = fs₂.get? l := by
          rw [hd.rest l fun e _ he => hs ⟨_, he⟩,
            hm.rest l (fun he => hs ⟨_, he⟩) (not_or.mp hl).2]
        by_cases hp : l <+: t.outputLoc
        · rcases hf.get? l with he | ⟨hnone, hdir⟩
          · exact .inl (.inl (hsame.trans he))
          · exact .inr (.inr (.inl ⟨t, ht, hp, (not_or.mp hl).1, hnone, hsame.trans hdir⟩))
        · exact .inl (.inl (hsame.trans (hb.rest l hp)))
    · intro u n hu
      cases hu
      refine ⟨?_, ?_⟩
      · rw [hout (List.prefix_refl _), hm.rest _ (beside_ne_out hc ht (List.prefix_refl _)) (by simp), hnew]
      · rw [hout (List.prefix_append _ _)]
        exact harrived

end Steps

/-- The processes write beside the sources alone. What they make there can be read if it has to be
copied to another device, and no copy fails. -/
structure Orderly (c : Config) (launch : Program.Launch) (fs₁ : FileSystem) : Prop where
  separate : c.Separate
  confined : ∀ fs cmd, Program.Confined c.corpusLoc fs (launch fs cmd).fs
  readable : ∀ t ∈ c.tools, fs₁.deviceOf c.corpusLoc ≠ fs₁.deviceOf t.outputLoc →
    ∀ fs cmd s, fs.get? (c.corpusLoc ++ [s]) = none →
      (launch fs cmd).fs.Only (c.corpusLoc ++ [s]) (fs.canRead · = true)
  copies : ∀ loc into, fs₁.lapses loc into = none

section Run

variable {c : Config} {logger : Log.Logger} {launch : Program.Launch} {cancelled : Bool}
  {fs₁ fs : FileSystem} {names : Tool → List String} {t : Tool} {name : String} {w : World}
  (ho : Orderly c launch fs₁) (ht : t ∈ c.tools) (hformed : Formed c name t)
  (hname : Path.IsName name) (hext : Path.ext name = c.corpusExt)

include ho ht hformed

/-- What a process leaves is collected whole or not at all. -/
theorem collect_tidy {cmd : Program.Command} (hfresh : artifactName c name ∉ names t) (h : Tidy c fs₁ names fs)
    (hnone : fs.get? (c.corpusLoc ++ [artifactName c name]) = none) {got : Artifact.Collected}
    (hgot : Artifact.collect (launch fs cmd).fs (Path.toLocation c.corpusLoc)
      (Path.trimEnd name c.corpusExt) t.outputDir c.artifactExt t.byproducts = got) :
    Tidy c fs₁ (deliver names (if (got.fault.isNone && got.path.isSome) = true
      then some (t, artifactName c name) else none)) got.fs := by
  have hc := ho.separate
  have hconfined := ho.confined fs cmd
  have hleft : Tidy c fs₁ names (launch fs cmd).fs :=
    (Shift.of_confined .discard hconfined).tidy_none hc rfl h
  have hcontents := hleft.contents t ht
  have hlast : (launch fs cmd).fs.Only t.outputLoc (· = .dir newDirMode) := by
    intro m hm
    rw [hcontents.dir] at hm
    split at hm
    · cases hm
    · exact (Option.some.inj hm).symm
  have hartifact : (launch fs cmd).fs.Only (c.corpusLoc ++ [artifactName c name]) fun m =>
      m.isRegular = true ∧ ((launch fs cmd).fs.deviceOf c.corpusLoc ≠
        (launch fs cmd).fs.deviceOf t.outputLoc → (launch fs cmd).fs.canRead m = true) := by
    intro m hm
    rcases hconfined.get? (c.corpusLoc ++ [artifactName c name]) with he | ⟨_, _, hregular⟩
    · rw [he, hnone] at hm
      cases hm
    · refine ⟨hregular m hm, fun hdevice => ?_⟩
      rw [deviceOf_of_terms hleft.terms, deviceOf_of_terms hleft.terms] at hdevice
      rw [canRead_of_terms hconfined.terms]
      exact ho.readable t ht hdevice fs cmd _ hnone m hm
  have hdelivers := Artifact.collect_all_or_none hleft.corpus (hc.outputLoc_ne_nil ht) hformed.place
    (fun x hx => ?_) hlast (hc.out_corpus t ht) (hc.corpus_out t ht) hformed.artifact.init.isName
    (fun e he => hformed.beside e (List.mem_cons_of_mem _ he)) (fun e _ => hleft.beside _) hartifact
    (hcontents.rest _ (List.prefix_append _ _) (by simp) fun n hn he => ?_)
    (fun loc into => by rw [lapses_of_terms hleft.terms, ho.copies])
  · rw [(hc.out t ht).eq_toLocation] at hgot
    rw [← Tool.outputLoc] at hgot
    rw [hgot] at hdelivers
    refine (Shift.of_delivers .discard hc ht hleft.beside hdelivers).tidy hc ?_ hleft
    intro u n hu
    split at hu
    · cases hu
      exact ht
    · cases hu
  · by_cases hx' : x = t.outputLoc
    · intro m hm
      rw [hlast m (hx' ▸ hm)]
      rfl
    · exact hleft.above t ht x hx hx'
  · refine hfresh ?_
    simp only [List.append_cancel_left_eq, List.cons.injEq, and_true] at he
    rw [artifactName, he]
    exact hn

include hname hext

omit ht in
theorem prepared_tidy (h : Tidy c fs₁ names w.fs)
    (hp : (runnerOf logger c).Prepared t (Path.toLocation (c.corpusLoc ++ [name])) w fs) :
    Tidy c fs₁ names fs ∧ fs.get? (c.corpusLoc ++ [artifactName c name]) = none := by
  have hn := hformed.artifact.last.1
  have hcorpus := hformed.artifact.init.isName
  have hreach := h.corpus.passable.reaches hformed.artifact.init.names
  have hnames : ∀ s ∈ c.corpusLoc ++ [name], Path.IsName s :=
    List.forall_mem_append.mpr ⟨hcorpus, List.forall_mem_singleton.mpr hname⟩
  obtain ⟨fs₂, hstale, hlogged⟩ := hp.stale
  rw [leftPath_toLocation hnames _ (by rw [hext]; exact hn), hext] at hstale
  have hlog : Logged logger fs₂ fs := hlogged
  have hgone := Runner.removeStale_gone hreach hcorpus hn hstale
  have hshift : Shift c logger none w.fs fs₂ := by
    rcases Runner.removeStale_erase hreach hcorpus hn hstale with rfl | rfl
    · exact .of_logged (.refl _ _)
    refine .of_beside rfl fun l => ?_
    by_cases hl : l = c.corpusLoc ++ [artifactName c name]
    · refine .inr ⟨_, hl, fun m hm => ?_⟩
      rw [hl] at hm
      exact absurd (hgone.symm.trans hm) nofun
    · exact .inl (by rw [get?_erase]; exact if_neg hl)
  have htidy := hshift.tidy_none ho.separate rfl h
  refine ⟨(Shift.of_logged hlog).tidy_none ho.separate rfl htidy, ?_⟩
  rw [hlog.get?_eq fun _ _ _ hfile => absurd (hgone.symm.trans hfile) nofun]
  exact hgone

/-- A run delivers its artifact if it succeeds, and nothing otherwise. -/
theorem assemble_tidy (hfresh : artifactName c name ∉ names t) (h : Tidy c fs₁ names w.fs) :
    Tidy c fs₁
      (deliver names (if ((runnerOf logger c).assemble launch cancelled t
        (Path.toLocation (c.corpusLoc ++ [name])) w).1.success = true
        then some (t, artifactName c name) else none))
      ((runnerOf logger c).assemble launch cancelled t
        (Path.toLocation (c.corpusLoc ++ [name])) w).2.fs := by
  have hc := ho.separate
  obtain ⟨fs', hcourse, hlogged⟩ := @Runner.assemble_course (runnerOf logger c) launch cancelled t
    (Path.toLocation (c.corpusLoc ++ [name])) rfl w
  have hlog : Logged logger fs' ((runnerOf logger c).assemble launch cancelled t
    (Path.toLocation (c.corpusLoc ++ [name])) w).2.fs := hlogged
  generalize (runnerOf logger c).assemble launch cancelled t
    (Path.toLocation (c.corpusLoc ++ [name])) w = result at hcourse hlog ⊢
  refine (Shift.of_logged hlog).tidy_none hc rfl ?_
  generalize result.1.success = ok at hcourse ⊢
  cases hcourse with
  | missing | stuck => exact h
  | held hp => exact (prepared_tidy ho hformed hname hext h hp).1
  | broken hp =>
    have hstart := (prepared_tidy ho hformed hname hext h hp).1
    exact (Shift.of_confined logger (ho.confined _ _)).tidy_none hc rfl hstart
  | ended hp _ hgot =>
    obtain ⟨hstart, hnone⟩ := prepared_tidy ho hformed hname hext h hp
    have hnames : ∀ s ∈ c.corpusLoc ++ [name], Path.IsName s :=
      List.forall_mem_append.mpr ⟨hformed.artifact.init.isName, List.forall_mem_singleton.mpr hname⟩
    rw [dir_sourcePath hnames, Path.stem_toLocation hname, hext] at hgot
    exact collect_tidy ho ht hformed hfresh hstart hnone hgot

end Run

def succeeded (runs : List (RunResult RunFault)) (t : Tool) : Bool :=
  runs.any fun run => run.tool = t.name && run.success

def delivered (c : Config) (results : List (CaseResult RunFault)) (t : Tool) : List String :=
  (results.filter fun r => succeeded r.runs t).map fun r => r.case.base ++ c.artifactExt

theorem delivered_append (c : Config) (results : List (CaseResult RunFault))
    (r : CaseResult RunFault) (t : Tool) :
    delivered c (results ++ [r]) t = delivered c results t ++
      if succeeded r.runs t = true then [r.case.base ++ c.artifactExt] else [] := by
  by_cases h : succeeded r.runs t = true
  · simp [delivered, h]
  · simp [delivered, h]

theorem mem_delivered {c : Config} {results : List (CaseResult RunFault)} {t : Tool} {n : String}
    (h : n ∈ delivered c results t) : ∃ r ∈ results, n = r.case.base ++ c.artifactExt := by
  obtain ⟨r, hr, rfl⟩ := List.mem_map.mp h
  exact ⟨r, (List.mem_filter.mp hr).1, rfl⟩

theorem Tidy.congr {c : Config} {fs₁ fs : FileSystem} {names names' : Tool → List String}
    (h : Tidy c fs₁ names fs) (hn : ∀ t ∈ c.tools, names' t = names t) : Tidy c fs₁ names' fs :=
  ⟨h.terms, h.corpus, h.beside, h.above, fun t ht => by rw [hn t ht]; exact h.contents t ht⟩

section Tools

variable {c : Config} {logger : Log.Logger} {launch : Program.Launch} {cancelled : Bool}
  {fs₁ : FileSystem} {name : String} {parts : Parts World RunFault}
  (hparts : parts.assemble = (runnerOf logger c).assemble launch cancelled)

include hparts

theorem tool_of_mem_runTools {path : String} {tools : List Tool} {w : World}
    {run : RunResult RunFault} (h : run ∈ (runTools parts path tools w).1) :
    ∃ t ∈ tools, run.tool = t.name := by
  induction tools generalizing w with
  | nil => cases h
  | cons t rest ih =>
    rw [runTools, hparts] at h
    rcases List.mem_cons.mp h with rfl | h
    · exact ⟨t, by simp, Runner.assemble_tool w⟩
    · obtain ⟨u, hu, hrun⟩ := ih h
      exact ⟨u, by simp [hu], hrun⟩

theorem runTools_tidy (hok : c.Accepted) (ho : Orderly c launch fs₁) (hname : Path.IsName name)
    (hext : Path.ext name = c.corpusExt) {tools : List Tool} (hsub : ∀ t ∈ tools, t ∈ c.tools)
    (hnodup : tools.Nodup)
    (hformed : ∀ t ∈ tools, Formed c name t)
    {names : Tool → List String} (hfresh : ∀ t ∈ tools, artifactName c name ∉ names t) {w : World}
    (h : Tidy c fs₁ names w.fs) :
    Tidy c fs₁
      (fun t => names t ++ if succeeded
        (runTools parts (Path.toLocation (c.corpusLoc ++ [name])) tools w).1 t = true
        then [artifactName c name] else [])
      (runTools parts (Path.toLocation (c.corpusLoc ++ [name])) tools w).2.fs := by
  induction tools generalizing names w with
  | nil => exact h.congr fun t _ => List.append_nil _
  | cons t rest ih =>
    obtain ⟨hnot, hnodup⟩ := List.nodup_cons.mp hnodup
    have ht := hsub t (by simp)
    have htool := @Runner.assemble_tool (runnerOf logger c) launch cancelled t
      (Path.toLocation (c.corpusLoc ++ [name])) w
    have hfirst := @assemble_tidy c logger launch cancelled fs₁ names t name w ho ht
      (hformed t (by simp)) hname hext (hfresh t (by simp)) h
    rw [runTools, hparts]
    generalize (runnerOf logger c).assemble launch cancelled t
      (Path.toLocation (c.corpusLoc ++ [name])) w = result at htool hfirst ⊢
    -- what this tool delivers is not another's
    have hother : ∀ {u}, u ≠ t → ∀ n, (if result.1.success = true
        then some (t, artifactName c name) else none) ≠ some (u, n) := by
      intro u hu n he
      split at he
      · cases he
        exact hu rfl
      · cases he
    have hrest := @ih (fun u hu => hsub u (by simp [hu])) hnodup (fun u hu => hformed u (by simp [hu]))
      _ (fun u hu => by
        rw [deliver_of_ne (hother fun he => hnot (he ▸ hu))]
        exact hfresh u (by simp [hu])) result.2 hfirst
    refine hrest.congr fun u hu => ?_
    dsimp only
    by_cases hut : u = t
    · subst u
      have hlater : succeeded
          (runTools parts (Path.toLocation (c.corpusLoc ++ [name])) rest result.2).1 t = false := by
        rw [succeeded, List.any_eq_false]
        intro run hrun
        obtain ⟨u, hu, hname⟩ := tool_of_mem_runTools hparts hrun
        have hne : u.name ≠ t.name := fun he =>
          hnot (hok.eq_of_name (hsub u (by simp [hu])) ht he ▸ hu)
        simp [hname, hne]
      rw [hlater, succeeded, List.any_cons, ← succeeded, hlater, htool]
      by_cases hs : result.1.success = true
      · simp [hs, deliver]
      · simp [hs, deliver]
    · have hne : t.name ≠ u.name := fun he => hut (hok.eq_of_name ht hu he).symm
      rw [deliver_of_ne (hother hut), succeeded, List.any_cons, ← succeeded, htool]
      simp [hne]

theorem runCase_tidy (hcompare : parts.compare = compareFiles)
    (hnote : ∀ record w, (parts.note record w) = logger.log w record) (hok : c.Accepted)
    (ho : Orderly c launch fs₁) (hname : Path.IsName name) (hext : Path.ext name = c.corpusExt)
    (hformed : ∀ t ∈ c.tools, Formed c name t) {test : TestCase} (hbase : test.base = Path.trimEnd name c.corpusExt)
    (hpath : test.path = Path.toLocation (c.corpusLoc ++ [name]))
    {done : List (CaseResult RunFault)}
    (hfresh : ∀ t ∈ c.tools, artifactName c name ∉ delivered c done t) {w : World}
    (h : Tidy c fs₁ (delivered c done) w.fs) :
    Tidy c fs₁ (delivered c (done ++ [(runCase parts c test w).1])) (runCase parts c test w).2.fs := by
  have hruns := runTools_tidy hparts hok ho hname hext (fun t ht => ht) hok.nodup hformed hfresh h
  rw [← hpath] at hruns
  refine runCase_keeps (P := fun w : World => Tidy c fs₁ _ w.fs) (fun _ _ _ _ w hw => ?_)
    (fun record w hw => ?_) (hruns.congr fun t _ => ?_)
  · rw [hcompare]
    exact hw
  · rw [hnote]
    exact (Shift.of_logged (log_logged logger w record)).tidy_none ho.separate rfl hw
  · rw [delivered_append, runs_runCase, case_runCase, hbase, artifactName]

end Tools

theorem reset_tidy {c : Config} {fs fs₁ : FileSystem} {cases : List TestCase} (hc : c.Separate)
    (hsound : fs.Sound) (hcorpus : fs.Straight c.corpusLoc)
    (hout : ∀ t ∈ c.tools, fs.Straight t.outputLoc)
    (hfiles : ∀ s, fs.Only (c.corpusLoc ++ [s]) fun n => n.isDir = false)
    (hchange : fs.mayChange c.corpusLoc = true) (hreset : reset fs c.tools = (fs₁, none))
    (hcases : Corpus.discover fs₁ c.corpusDir c.corpusExt = .ok cases) :
    Tidy c fs₁ (delivered c []) fs₁ := by
  obtain ⟨_, hw, _, hget, hgone⟩ := reset_cleared hsound
    (fun t ht => ⟨hc.out t ht, hc.outputLoc_ne_nil ht, hout t ht⟩) hreset
  refine ⟨rfl, openDir_of_discover hc.corpus (hcorpus.within hw) ?_ hcases,
    fun s => (hfiles s).within hw, fun t ht x hx hne => ?_,
    fun t ht => ⟨(hgone t ht).1 _ (List.prefix_refl _), by simp [delivered],
      fun l hl _ _ => (hgone t ht).1 l hl⟩⟩
  · rw [mayChange_congr hw.terms (hget _ fun t ht => hc.corpus_out t ht), hchange]
  · obtain ⟨rest, hrest⟩ := hx
    refine (hgone t ht).2 x ?_
    rw [← hrest, List.dropLast_append_of_ne_nil]
    · exact List.prefix_append _ _
    · rintro rfl
      exact hne (by rw [← hrest, List.append_nil])

/-- After a session, the output directory of a tool holds the artifacts of the cases in which the
tool succeeded, and nothing else. -/
theorem run_contents {store : Settings.Store} {cwd exeDir : Except String String} {c : Config}
    (hload : Settings.load store cwd exeDir = .ok c) (launch : Program.Launch) (cancelled tty : Bool)
    (logger : Log.Logger) (w : World) (ho : Orderly c launch w.fs) (hsound : w.fs.Sound)
    (hdistinct : w.fs.Distinct) (hcorpus : w.fs.Straight c.corpusLoc)
    (hout : ∀ t ∈ c.tools, w.fs.Straight t.outputLoc)
    (hfiles : ∀ s, w.fs.Only (c.corpusLoc ++ [s]) fun n => n.isDir = false)
    (hchange : w.fs.mayChange c.corpusLoc = true)
    (hnames : c.Expressible w.fs) {report : Report RunFault} {w' : World}
    (hrun : run (standard launch cancelled tty logger c) c w = (.ok report, w')) :
    ∀ t ∈ c.tools, (delivered c report.cases t).Nodup ∧
      Contents t (delivered c report.cases t) w'.fs := by
  have hc := ho.separate
  have hok := Config.accepted_of_fault?_eq_none (fault?_of_load hload)
  obtain ⟨fs₁, cases, hreset, hcases, hover⟩ := run_eq_ok hrun
  rw [standard_files] at hreset
  rw [standard_setFiles, standard_files] at hcases
  obtain ⟨hsound₁, hw, _, hget, _⟩ := reset_cleared hsound
    (fun t ht => ⟨hc.out t ht, hc.outputLoc_ne_nil ht, hout t ht⟩) hreset
  have ho₁ : Orderly c launch fs₁ := by
    refine ⟨hc, ho.confined, fun t ht hdevice => ho.readable t ht ?_, fun loc into => ?_⟩
    · rwa [deviceOf_of_terms hw.terms, deviceOf_of_terms hw.terms] at hdevice
    · rw [lapses_of_terms hw.terms, ho.copies]
  have hplace := nameable_of_discover hc.corpus (hcorpus.within hw) hcases
  have hdistinct₁ := reset_distinct hsound.named hdistinct c.tools
  rw [hreset] at hdistinct₁
  have hnodup := nodup_artifacts hdistinct₁ hsound₁.named hcases
  obtain ⟨hreported, hall⟩ := @runOver_induct World RunFault
    (standard launch cancelled tty logger c) c cases
    (fun done w => Tidy c fs₁ (delivered c done) w.fs)
    (fun done record s h => (Shift.of_logged (log_logged logger s record)).tidy_none hc rfl h)
    (fun s h => h)
    (fun done test rest s hsplit h => by
      obtain ⟨name, hname, hext, hsome, rfl, hpath, _⟩ := exists_name_of_discover hc.corpus
        (hcorpus.within hw) hsound₁.named hcases (show test ∈ cases by rw [← hsplit]; simp)
      rw [hget _ fun t ht hp => beside_ne_out hc ht hp rfl] at hsome
      refine runCase_tidy (standard_assemble launch cancelled tty logger c)
        (standard_compare launch cancelled tty logger c) (fun _ _ => rfl) hok ho₁ hname hext
        (fun t ht => formed_of_expressible hnames hc hplace hname hext hsome ht) rfl hpath
        (fun t _ hmem => ?_) h
      obtain ⟨r, hr, he⟩ := mem_delivered hmem
      rw [← hsplit, List.map_append, List.map_map] at hnodup
      refine List.disjoint_of_nodup_append hnodup (List.mem_map_of_mem hr) ?_
      change r.case.base ++ c.artifactExt ∈ artifactName c name :: _
      rw [he]
      exact List.mem_cons_self)
    (fun _ r s h => h) { w with fs := fs₁ }
    (reset_tidy hc hsound hcorpus hout hfiles hchange hreset hcases)
  rw [standard_setFiles] at hover
  rw [hover] at hreported hall
  refine fun t ht => ⟨?_, hall.contents t ht⟩
  rw [← hreported, List.map_map] at hnodup
  exact hnodup.sublist (List.filter_sublist.map _)

def mountedFiles : FileSystem := { sampleFiles with mounts := [["o"]] }

theorem sampleLaunch_confined (fs : FileSystem) (cmd : Program.Command) :
    Program.Confined ["c"] fs (sampleLaunch fs cmd).fs := by
  have hwrites := sampleLaunch_writesIn fs cmd
  refine ⟨hwrites.terms, fun l => ?_⟩
  by_cases hl : l = ["c", "p.hex"]
  · rw [sampleLaunch]
    split
    · refine .inr ⟨"p.hex", hl, fun n hn => ?_⟩
      rw [get?_addFile, if_pos hl] at hn
      cases hn
      rfl
    · exact .inl rfl
  · exact .inl (sampleLaunch_get? hl)

theorem sampleLaunch_orderly :
    Orderly (sampleConfig "/o/a" ".hex" [".lst"]) sampleLaunch mountedFiles := by
  refine ⟨by decide, ?_, fun t _ _ fs cmd s hnone n hn => ?_, fun _ _ => rfl⟩
  · rw [sampleConfig_corpusLoc]
    exact sampleLaunch_confined
  · rw [sampleConfig_corpusLoc] at hnone hn
    rw [sampleLaunch] at hn
    split at hn
    · rw [get?_addFile] at hn
      split at hn
      · cases hn
        rw [canRead, Bool.or_eq_true, decide_eq_true_iff]
        exact .inr (by simp [Node.ownerBits])
      · rw [hnone] at hn
        cases hn
    · rw [hnone] at hn
      cases hn

theorem run_contents_sample :
    Settings.load (sampleStore "o/a" [".lst"]) (.ok "/") (.ok "/") = .ok (sampleConfig "/o/a" ".hex" [".lst"]) ∧
    ∃ report w', run (standard sampleLaunch false false .discard (sampleConfig "/o/a" ".hex" [".lst"]))
        (sampleConfig "/o/a" ".hex" [".lst"]) { fs := mountedFiles } = (.ok report, w') ∧
      (sampleConfig "/o/a" ".hex" [".lst"]).tools.map
        (delivered (sampleConfig "/o/a" ".hex" [".lst"]) report.cases) = [["p.hex"], ["p.hex"]] ∧
      ∀ t ∈ (sampleConfig "/o/a" ".hex" [".lst"]).tools,
        (delivered (sampleConfig "/o/a" ".hex" [".lst"]) report.cases t).Nodup ∧
        Contents t (delivered (sampleConfig "/o/a" ".hex" [".lst"]) report.cases t) w'.fs := by
  have hload : Settings.load (sampleStore "o/a" [".lst"]) (.ok "/") (.ok "/") =
      .ok (sampleConfig "/o/a" ".hex" [".lst"]) := by
    rw [Settings.load, Settings.Store.settings, sampleStore_keys]
    decide +kernel
  have hsources : ∀ e ∈ mountedFiles.nodes,
      e.1.head? = some "c" → e.1 = ["c"] ∨ e.1 = ["c", "p.asm"] := by decide
  have hlinks := linkAt_of_nodes (show ∀ e ∈ mountedFiles.nodes, mountedFiles.linkAt e.1 = none by decide)
  have hdistinct : (mountedFiles.nodes.map (·.1)).Nodup := by decide
  have hfiles : ∀ e ∈ mountedFiles.nodes, e.1.length = 2 → e.2.isDir = false := by decide
  have hok : (run (standard sampleLaunch false false .discard (sampleConfig "/o/a" ".hex" [".lst"]))
      (sampleConfig "/o/a" ".hex" [".lst"]) { fs := mountedFiles }).1.toOption.map (fun report =>
        (sampleConfig "/o/a" ".hex" [".lst"]).tools.map
          (delivered (sampleConfig "/o/a" ".hex" [".lst"]) report.cases)) =
      some [["p.hex"], ["p.hex"]] := by decide +kernel
  refine ⟨hload, ?_⟩
  rcases hr : run (standard sampleLaunch false false .discard (sampleConfig "/o/a" ".hex" [".lst"]))
      (sampleConfig "/o/a" ".hex" [".lst"]) { fs := mountedFiles } with ⟨fault | report, w'⟩
  · rw [hr] at hok
    cases hok
  · rw [hr] at hok
    refine ⟨report, w', rfl, Option.some.inj hok, ?_⟩
    refine run_contents hload sampleLaunch false false .discard { fs := mountedFiles }
      sampleLaunch_orderly (.of_nodes (by decide)) hdistinct (fun x _ => hlinks x)
      (fun _ _ x _ => hlinks x) (fun s n hn => ?_) (by decide)
      ⟨by decide, fun name _ hsome => ?_, fun name _ hsome => ?_⟩ hr
    · rw [sampleConfig_corpusLoc] at hn
      exact hfiles _ (mem_nodes_of_get? hn) rfl
    all_goals
      rw [sampleConfig_corpusLoc] at hsome
      rw [eq_of_isSome_source hsources hsome]
      decide

/-- Both tools leave an artifact that only they can read. -/
def secretLaunch : Program.Launch := fun fs _ =>
  { fs := fs.addFile ["c", "p.hex"] 0o200 "00".toUTF8, ending := .clean }

def aftermath (launch : Program.Launch) (c : Config) (fs : FileSystem) :
    List (List String) × List (Option (List String)) :=
  let (outcome, w) := run (standard launch false false .discard c) c { fs }
  (outcome.toOption.elim [] fun report => c.tools.map (delivered c report.cases),
    c.tools.map fun t => (w.fs.get? t.outputLoc).map fun _ => w.fs.children t.outputLoc)

/-- An output directory holds the artifact of a run that failed if the artifact cannot be taken from
beside the source, and it is there for no success at all if the artifact cannot be read. -/
theorem run_leaves_stray :
    Settings.load (sampleStore "o/a" []) (.ok "/") (.ok "/") = .ok (sampleConfig "/o/a" ".hex" []) ∧
    (sampleConfig "/o/a" ".hex" []).Separate ∧
    ((∀ fs cmd, Program.Confined ["c"] fs (sampleLaunch fs cmd).fs) ∧
      aftermath sampleLaunch (sampleConfig "/o/a" ".hex" [])
        (sampleFiles.set ["c"] (.dir 0o555)) = ([[], []], [some ["p.hex"], none])) ∧
    ((∀ fs cmd, Program.Confined ["c"] fs (secretLaunch fs cmd).fs) ∧
      aftermath secretLaunch (sampleConfig "/o/a" ".hex" []) mountedFiles =
        ([[], []], [some [], some []])) := by
  refine ⟨?_, by decide, ⟨sampleLaunch_confined, by decide +kernel⟩, ⟨fun fs cmd => ?_, by decide +kernel⟩⟩
  · rw [Settings.load, Settings.Store.settings, sampleStore_keys]
    decide +kernel
  · refine ⟨rfl, fun l => ?_⟩
    rw [secretLaunch, get?_addFile]
    by_cases hl : l = ["c", "p.hex"]
    · refine .inr ⟨"p.hex", hl, fun n hn => ?_⟩
      rw [get?_addFile, if_pos hl] at hn
      cases hn
      rfl
    · exact .inl (if_neg hl)

end Session

end Crosscheck
