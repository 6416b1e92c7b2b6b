import Crosscheck.Proofs.Config
import Crosscheck.Proofs.Corpus
import Crosscheck.Proofs.Delivery
import Crosscheck.Proofs.FileSystem.Clearing
import Crosscheck.Proofs.Session.Invariant

namespace Crosscheck

open FileSystem

def Path.IsClean (p : String) : Prop := Path.isAbs p = true ∧ Path.clean p = p

instance (p : String) : Decidable (Path.IsClean p) := inferInstanceAs (Decidable (_ ∧ _))

theorem Path.IsClean.eq_toLocation {p : String} (h : Path.IsClean p) :
    p = Path.toLocation (Path.names p) := by
  rw [← Path.clean_of_isAbs h.1, h.2]

theorem Path.IsClean.isName {p : String} (h : Path.IsClean p) {s : String}
    (hs : s ∈ Path.names p) : Path.IsName s := Path.isName_of_mem_names h.1 hs

def Path.IsExtension (e : String) : Prop :=
  ∃ s, s ≠ "" ∧ '.' ∉ s.toList ∧ '/' ∉ s.toList ∧ e = "." ++ s

theorem Path.isExtension_iff {e : String} : Path.IsExtension e ↔
    e.toList.head? = some '.' ∧ e.toList.tail ≠ [] ∧ '.' ∉ e.toList.tail ∧ '/' ∉ e.toList.tail := by
  constructor
  · rintro ⟨s, hne, hdot, hslash, rfl⟩
    simpa using ⟨hne, hdot, hslash⟩
  · rintro ⟨hhead, hne, hdot, hslash⟩
    refine ⟨String.ofList e.toList.tail, fun h => hne ?_, by simpa using hdot, by simpa using hslash, ?_⟩
    · simpa using h
    · apply String.ext
      cases he : e.toList with
      | nil => simp [he] at hhead
      | cons c cs =>
        rw [he, List.head?_cons, Option.some.injEq] at hhead
        simp [hhead]

instance (e : String) : Decidable (Path.IsExtension e) := decidable_of_iff' _ Path.isExtension_iff

namespace Path.IsExtension

variable {e : String} (h : Path.IsExtension e)

include h

theorem isName : Path.IsName e := by
  obtain ⟨s, hne, hdot, hslash, rfl⟩ := h
  have hlist : ("." ++ s).toList = '.' :: s.toList := by simp
  refine ⟨fun he => ?_, fun he => hne ?_, fun he => hdot ?_, fun hmem => ?_⟩
  · rw [he] at hlist
    cases hlist
  · rw [he] at hlist
    exact String.ext (List.cons.inj hlist).2.symm
  · rw [he] at hlist
    rw [← (List.cons.inj hlist).2]
    exact List.mem_cons_self
  · rw [hlist, List.mem_cons] at hmem
    exact hmem.elim (by decide) hslash

theorem ext_eq : Path.ext e = e := by
  obtain ⟨s, hne, hdot, hslash, rfl⟩ := id h
  have hlist : ("." ++ s).toList = '.' :: s.toList := by simp
  have htake : s.toList.reverse.takeWhile (· != '.') = s.toList.reverse := by
    rw [List.takeWhile_eq_self_iff]
    intro c hc
    rw [List.mem_reverse] at hc
    rw [bne_iff_ne]
    rintro rfl
    exact hdot hc
  have hall : ('.' :: s.toList).reverse.takeWhile (· != '.') = s.toList.reverse := by
    rw [List.reverse_cons, List.takeWhile_append, htake, if_pos rfl]
    simp
  rw [Path.ext_of_no_slash h.isName.no_slash, Path.extOf, hlist, hall, List.reverse_reverse,
    if_pos (by simp), ← hlist, String.ofList_toList]

theorem ext_append {base : String} (hb : '/' ∉ base.toList) : Path.ext (base ++ e) = e := by
  have hdot : '.' ∈ e.toList := by
    obtain ⟨s, _, _, _, rfl⟩ := h
    simp
  rw [Path.ext_append (h.isName.append hb).no_slash hdot, h.ext_eq]

end Path.IsExtension

def Config.corpusLoc (c : Config) : Location := Path.names c.corpusDir

def Tool.exeLoc (t : Tool) : Location := Path.names t.path

def Tool.outputLoc (t : Tool) : Location := Path.names t.outputDir

/-- The directories that a configuration names lie apart, and its extensions are nothing more. -/
structure Config.Separate (c : Config) : Prop where
  corpus : Path.IsClean c.corpusDir
  out : ∀ t ∈ c.tools, Path.IsClean t.outputDir
  out_corpus : ∀ t ∈ c.tools, ¬ c.corpusLoc <+: t.outputLoc
  corpus_out : ∀ t ∈ c.tools, ¬ t.outputLoc <+: c.corpusLoc
  out_out : ∀ t ∈ c.tools, ∀ u ∈ c.tools, t.outputLoc <+: u.outputLoc → t = u
  extensions : ∀ t ∈ c.tools, ∀ e ∈ c.artifactExt :: t.byproducts, Path.IsExtension e

instance (c : Config) : Decidable c.Separate :=
  decidable_of_iff
    (Path.IsClean c.corpusDir ∧ (∀ t ∈ c.tools, Path.IsClean t.outputDir) ∧
      (∀ t ∈ c.tools, ¬ c.corpusLoc <+: t.outputLoc) ∧ (∀ t ∈ c.tools, ¬ t.outputLoc <+: c.corpusLoc) ∧
      (∀ t ∈ c.tools, ∀ u ∈ c.tools, t.outputLoc <+: u.outputLoc → t = u) ∧
      ∀ t ∈ c.tools, ∀ e ∈ c.artifactExt :: t.byproducts, Path.IsExtension e)
    ⟨fun ⟨h₁, h₂, h₃, h₄, h₅, h₆⟩ => ⟨h₁, h₂, h₃, h₄, h₅, h₆⟩, fun h => ⟨h.1, h.2, h.3, h.4, h.5, h.6⟩⟩

/-- The programs of the tools are in nobody's way either, and no extension makes a source of a
name. -/
structure Config.Apart (c : Config) : Prop extends c.Separate where
  exe : ∀ t ∈ c.tools, Path.IsClean t.path
  exe_corpus : ∀ t ∈ c.tools, ¬ c.corpusLoc <+: t.exeLoc
  exe_out : ∀ t ∈ c.tools, ∀ u ∈ c.tools, ¬ t.outputLoc <+: u.exeLoc
  others : ∀ t ∈ c.tools, ∀ e ∈ c.artifactExt :: t.byproducts, e ≠ c.corpusExt

instance (c : Config) : Decidable c.Apart :=
  decidable_of_iff
    (c.Separate ∧ (∀ t ∈ c.tools, Path.IsClean t.path) ∧
      (∀ t ∈ c.tools, ¬ c.corpusLoc <+: t.exeLoc) ∧
      (∀ t ∈ c.tools, ∀ u ∈ c.tools, ¬ t.outputLoc <+: u.exeLoc) ∧
      ∀ t ∈ c.tools, ∀ e ∈ c.artifactExt :: t.byproducts, e ≠ c.corpusExt)
    ⟨fun ⟨h₁, h₂, h₃, h₄, h₅⟩ => ⟨h₁, h₂, h₃, h₄, h₅⟩, fun h => ⟨h.1, h.2, h.3, h.4, h.5⟩⟩

def Session.artifactName (c : Config) (name : String) : String :=
  Path.trimEnd name c.corpusExt ++ c.artifactExt

def FileSystem.Accessible (fs : FileSystem) (loc : Location) : Prop :=
  ∀ x mode, x <+: loc → fs.get? x = some (.dir mode) → fs.canSearch (.dir mode) = true ∧
    ((∀ s, x ++ [s] <+: loc → fs.get? (x ++ [s]) = none) → fs.canWrite (.dir mode) = true)

/-- No links are on the way to what a configuration names, its programs are there, and there are
only regular files in the directory of its corpus. -/
structure Config.Fits (c : Config) (fs : FileSystem) : Prop where
  sound : fs.Sound
  distinct : fs.Distinct
  corpus : fs.Straight c.corpusLoc
  exe : ∀ t ∈ c.tools, fs.Straight t.exeLoc ∧ fs.fileExists t.path = true
  out : ∀ t ∈ c.tools, fs.Straight t.outputLoc
  files : ∀ s, fs.Only (c.corpusLoc ++ [s]) fun n => n.isRegular = true

/-- The system takes the names and the paths that are formed for a source. -/
structure Config.Expressible (c : Config) (fs : FileSystem) : Prop where
  out : ∀ t ∈ c.tools, ∀ s ∈ t.outputLoc, s.utf8ByteSize ≤ maxName
  beside : ∀ name, Path.ext name = c.corpusExt → (fs.get? (c.corpusLoc ++ [name])).isSome = true →
    ∀ t ∈ c.tools, ∀ e ∈ c.artifactExt :: t.byproducts,
      (Path.trimEnd name c.corpusExt ++ e).utf8ByteSize ≤ maxName
  paths : ∀ name, Path.ext name = c.corpusExt → (fs.get? (c.corpusLoc ++ [name])).isSome = true →
    ∀ t ∈ c.tools, pathFault? (Path.toLocation (t.outputLoc ++ [Session.artifactName c name])) = none ∧
      ∀ e ∈ c.artifactExt :: t.byproducts,
        pathFault? (Path.toLocation (c.corpusLoc ++ [Path.trimEnd name c.corpusExt ++ e])) = none

/-- The session may do what it has to, and no copy to another device fails. -/
structure Config.Feasible (c : Config) (fs : FileSystem) : Prop extends c.Expressible fs where
  corpus : fs.mayChange c.corpusLoc = true
  above : ∀ t ∈ c.tools, fs.Accessible t.outputLoc.dropLast
  copies : ∀ loc into, fs.lapses loc into = none

namespace Config.Separate

variable {c : Config} (h : c.Separate) {t u : Tool}

include h

theorem corpus_ne_out (ht : t ∈ c.tools) : c.corpusLoc ≠ t.outputLoc := by
  intro he
  have hout := h.out_corpus t ht
  rw [he] at hout
  exact hout (List.prefix_refl _)

theorem outputLoc_ne_nil (ht : t ∈ c.tools) : t.outputLoc ≠ [] := by
  intro he
  have hout := h.corpus_out t ht
  rw [he] at hout
  exact hout List.nil_prefix

theorem eq_of_outputLoc (ht : t ∈ c.tools) (hu : u ∈ c.tools) (he : t.outputLoc = u.outputLoc) :
    t = u := by
  apply h.out_out t ht u hu
  exact he ▸ List.prefix_refl _

end Config.Separate

namespace Session

structure Formed (c : Config) (name : String) (t : Tool) : Prop where
  place : Nameable (t.outputLoc ++ [artifactName c name])
  beside : ∀ e ∈ c.artifactExt :: t.byproducts,
    Nameable (c.corpusLoc ++ [Path.trimEnd name c.corpusExt ++ e])

theorem Formed.artifact {c : Config} {name : String} {t : Tool} (h : Formed c name t) :
    Nameable (c.corpusLoc ++ [artifactName c name]) := h.beside _ List.mem_cons_self

theorem formed_of_expressible {c : Config} {fs : FileSystem} (h : c.Expressible fs) (hc : c.Separate)
    (hcorpus : Nameable c.corpusLoc) {name : String} (hname : Path.IsName name)
    (hext : Path.ext name = c.corpusExt) (hthere : (fs.get? (c.corpusLoc ++ [name])).isSome = true)
    {t : Tool} (ht : t ∈ c.tools) : Formed c name t := by
  obtain ⟨hplace, hbeside⟩ := h.paths name hext hthere t ht
  have hshort : ∀ e ∈ c.artifactExt :: t.byproducts, ShortName (Path.trimEnd name c.corpusExt ++ e) := by
    refine fun e he => ⟨?_, h.beside name hext hthere t ht e he⟩
    exact (hc.extensions t ht e he).isName.append fun hmem => hname.no_slash (Path.mem_trimEnd hmem)
  refine ⟨⟨?_, hplace⟩, fun e he => ⟨?_, hbeside e he⟩⟩
  · exact List.forall_mem_append.mpr ⟨fun s hs => ⟨(hc.out t ht).isName hs, h.out t ht s hs⟩,
      List.forall_mem_singleton.mpr (hshort _ List.mem_cons_self)⟩
  · exact List.forall_mem_append.mpr ⟨hcorpus.names, List.forall_mem_singleton.mpr (hshort e he)⟩

def Stored (logger : Log.Logger) (fs : FileSystem) (n : Node) : Prop :=
  ∃ id mode bytes, n = .file id mode bytes ∧ logger.file ≠ some id ∧ fs.canRead n = true

theorem Stored.unlogged {logger : Log.Logger} {fs : FileSystem} {id mode : Nat} {bytes : ByteArray}
    (h : Stored logger fs (.file id mode bytes)) : logger.file ≠ some id := by
  obtain ⟨_, _, _, hn, hlog, _⟩ := h
  rw [Node.file.injEq] at hn
  rw [hn.1]
  exact hlog

theorem Stored.congr {logger : Log.Logger} {fs fs' : FileSystem} {n : Node} (h : Stored logger fs n)
    (ht : fs'.terms = fs.terms) : Stored logger fs' n := by
  obtain ⟨id, mode, bytes, hn, hlog, hr⟩ := h
  exact ⟨id, mode, bytes, hn, hlog, by rw [canRead_of_terms ht, hr]⟩

/-- What each run of a tool can rely on, and leaves. The sources are as they were at first but for
what was logged to them. -/
structure Ready (c : Config) (logger : Log.Logger) (fs₁ fs : FileSystem) : Prop where
  terms : fs.terms = fs₁.terms
  nextId : fs₁.nextId ≤ fs.nextId
  corpus : fs.OpenDir c.corpusLoc
  exe : ∀ t ∈ c.tools, fs.HasFile t.exeLoc
  roads : ∀ t ∈ c.tools, fs.Road t.outputLoc
  beside : ∀ s, fs.Only (c.corpusLoc ++ [s]) fun n => n.isRegular = true
  sources : ∀ s, Path.ext s = c.corpusExt →
    Grown logger (fs₁.get? (c.corpusLoc ++ [s])) (fs.get? (c.corpusLoc ++ [s]))
  stored : ∀ t ∈ c.tools, ∀ s, fs.Only (t.outputLoc ++ [s]) (Stored logger fs)

/-- A change beside the sources, in the log, or in place of one artifact. -/
structure Step (c : Config) (logger : Log.Logger) (target : Option (Tool × String))
    (fs fs' : FileSystem) : Prop where
  terms : fs'.terms = fs.terms
  nextId : fs.nextId ≤ fs'.nextId
  get? : ∀ l, Grown logger (fs.get? l) (fs'.get? l) ∨
    (∃ s, l = c.corpusLoc ++ [s] ∧ Path.ext s ≠ c.corpusExt ∧
      fs'.Only l fun n => n.isRegular = true) ∨
    ∃ t n, target = some (t, n) ∧ l = t.outputLoc ++ [n] ∧ fs'.Only l (Stored logger fs')

section Step

variable {c : Config} {logger : Log.Logger} {fs₁ fs fs' : FileSystem}
  {target : Option (Tool × String)} (ha : c.Apart)
  (htarget : ∀ t n, target = some (t, n) → t ∈ c.tools) (h : Step c logger target fs fs')

include ha htarget h

omit ha in
theorem Step.grown {l : Location} (hl : ∀ s, Path.ext s ≠ c.corpusExt → l ≠ c.corpusLoc ++ [s])
    (ht : ∀ t ∈ c.tools, ∀ s, l ≠ t.outputLoc ++ [s]) : Grown logger (fs.get? l) (fs'.get? l) := by
  rcases h.get? l with hg | ⟨s, rfl, hs, _⟩ | ⟨t, n, hn, rfl, _⟩
  · exact hg
  · exact absurd rfl (hl s hs)
  · exact absurd rfl (ht t (htarget t n hn) n)

omit ha in
theorem Step.dir {l : Location} (hl : ∀ s, Path.ext s ≠ c.corpusExt → l ≠ c.corpusLoc ++ [s])
    (ht : ∀ t ∈ c.tools, ∀ s, l ≠ t.outputLoc ++ [s])
    (hd : fs.Only l fun n => n.isDir = true) : fs'.get? l = fs.get? l := by
  refine (h.grown htarget hl ht).eq fun id mode bytes hfile => ?_
  exact absurd (hd _ hfile) Bool.false_ne_true

theorem Step.road (hr : Ready c logger fs₁ fs) {t : Tool} (ht : t ∈ c.tools) {x : Location}
    (hx : x <+: t.outputLoc) : fs'.get? x = fs.get? x := by
  refine h.dir htarget ?_ ?_ fun n hn => ((hr.roads t ht).dirs x hx n hn).1
  · rintro s _ rfl
    exact ha.out_corpus t ht ((List.prefix_append _ [s]).trans hx)
  · rintro u hu s rfl
    have hut := ha.out_out u hu t ht ((List.prefix_append _ [s]).trans hx)
    subst u
    exact not_prefix_of_append _ _ hx

theorem Step.hasFile (hr : Ready c logger fs₁ fs) {t : Tool} (ht : t ∈ c.tools) :
    fs'.HasFile t.exeLoc := by
  have hexe := hr.exe t ht
  obtain ⟨x, s, hsplit, hp⟩ := hexe.split
  obtain ⟨m, hm, hd⟩ := hexe.node
  have hbeside : ∀ y, y <+: t.exeLoc → ∀ s, Path.ext s ≠ c.corpusExt → y ≠ c.corpusLoc ++ [s] := by
    rintro y hy s _ rfl
    exact ha.exe_corpus t ht ((List.prefix_append _ [s]).trans hy)
  have hout : ∀ y, y <+: t.exeLoc → ∀ u ∈ c.tools, ∀ s, y ≠ u.outputLoc ++ [s] := by
    rintro y hy u hu s rfl
    exact ha.exe_out u hu t ht ((List.prefix_append _ [s]).trans hy)
  have hg := h.grown htarget (hbeside _ (List.prefix_refl _)) (hout _ (List.prefix_refl _))
  rw [hm] at hg
  obtain ⟨m', hm', hd', hlink⟩ := hg.node hd fun a ha => linkAt_eq_none.mp hexe.link a (ha ▸ hm)
  refine ⟨hexe.nameable, ⟨x, s, hsplit, hp.congr h.terms fun y hy => ?_⟩, ⟨m', hm', hd'⟩, ?_⟩
  · have hy' : y <+: t.exeLoc := by
      rw [hsplit]
      exact hy.trans (List.prefix_append x [s])
    exact h.dir htarget (hbeside y hy') (hout y hy') fun n hn => isDir_of_enter (hp y hy) hn
  · rw [linkAt_eq_none, hm']
    exact fun a ha => hlink a (Option.some.inj ha)

theorem Step.ready (hr : Ready c logger fs₁ fs) : Ready c logger fs₁ fs' := by
  refine ⟨h.terms.trans hr.terms, Nat.le_trans hr.nextId h.nextId, ?_,
    fun t ht => h.hasFile ha htarget hr ht,
    fun t ht => (hr.roads t ht).congr h.terms fun x hx => h.road ha htarget hr ht hx,
    fun s m hm => ?_, fun s hs => ?_, fun t ht s m hm => ?_⟩
  · refine hr.corpus.congr h.terms fun x hx => h.dir htarget ?_ ?_ fun n hn => ?_
    · rintro s _ rfl
      exact not_prefix_of_append _ _ hx
    · rintro u hu s rfl
      exact ha.corpus_out u hu ((List.prefix_append _ [s]).trans hx)
    · exact isDir_of_enter (hr.corpus.passable x hx) hn
  · rcases h.get? (c.corpusLoc ++ [s]) with hg | ⟨_, _, _, ho⟩ | ⟨t, n, hn, hl, _⟩
    · rw [hm] at hg
      exact hg.isRegular (hr.beside s)
    · exact ho m hm
    · exact absurd (List.append_inj' hl rfl).1 (ha.corpus_ne_out (htarget t n hn))
  · refine (hr.sources s hs).trans (h.grown htarget ?_ ?_)
    · rintro s' hs' he
      have hss : s = s' := by simpa using he
      exact hs' (hss ▸ hs)
    · intro t ht s' he
      exact ha.corpus_ne_out ht (List.append_inj' he rfl).1
  · rcases h.get? (t.outputLoc ++ [s]) with hg | ⟨s', hl, _⟩ | ⟨u, n, hn, hl, ho⟩
    · rw [hg.eq fun id mode bytes hfile => (hr.stored t ht s _ hfile).unlogged] at hm
      exact (hr.stored t ht s m hm).congr h.terms
    · exact absurd (List.append_inj' hl rfl).1.symm (ha.corpus_ne_out ht)
    · have htu := ha.eq_of_outputLoc ht (htarget u n hn) (List.append_inj' hl rfl).1
      subst u
      exact ho m hm

/-- A step leaves the output directories as they are, but for one artifact. -/
theorem Step.kept (hr : Ready c logger fs₁ fs) {u : Tool} (hu : u ∈ c.tools) {n : String}
    (hne : target ≠ some (u, n)) : fs'.get? (u.outputLoc ++ [n]) = fs.get? (u.outputLoc ++ [n]) := by
  have hg : Grown logger (fs.get? (u.outputLoc ++ [n])) (fs'.get? (u.outputLoc ++ [n])) := by
    rcases h.get? (u.outputLoc ++ [n]) with hg | ⟨s, hl, _⟩ | ⟨t, m, hm, hl, _⟩
    · exact hg
    · exact absurd (List.append_inj' hl rfl).1.symm (ha.corpus_ne_out hu)
    · obtain ⟨hdir, hname⟩ := List.append_inj' hl rfl
      have hut := ha.eq_of_outputLoc hu (htarget t m hm) hdir
      cases hname
      subst u
      exact absurd hm hne
  exact hg.eq fun _ _ _ hfile => (hr.stored u hu n _ hfile).unlogged

end Step

section Steps

variable {c : Config} {logger : Log.Logger} {fs₁ fs fs' : FileSystem} {t : Tool} {n : String}

theorem Step.of_logged (h : Logged logger fs fs') : Step c logger none fs fs' :=
  ⟨h.terms, Nat.le_of_eq h.nextId.symm, fun l => .inl (h.grown l)⟩

theorem Step.of_beside (hterms : fs'.terms = fs.terms) (hid : fs.nextId ≤ fs'.nextId)
    (h : ∀ l, fs'.get? l = fs.get? l ∨ ∃ s, l = c.corpusLoc ++ [s] ∧ Path.ext s ≠ c.corpusExt ∧
      fs'.Only l fun n => n.isRegular = true) : Step c logger none fs fs' :=
  ⟨hterms, hid, fun l => (h l).elim (fun he => .inl (.inl he)) fun hs => .inr (.inl hs)⟩

theorem Step.of_discarded {base : String} {exts : List String}
    (hd : Artifact.Discarded c.corpusLoc base exts fs fs')
    (hexts : ∀ e ∈ exts, Path.ext (base ++ e) ≠ c.corpusExt)
    (ho : ∀ s, fs.Only (c.corpusLoc ++ [s]) fun n => n.isRegular = true) :
    Step c logger none fs fs' := by
  refine .of_beside hd.terms (Nat.le_of_eq hd.nextId.symm) fun l => ?_
  by_cases hl : ∀ e ∈ exts, l ≠ c.corpusLoc ++ [base ++ e]
  · exact .inl (hd.rest l hl)
  · push Not at hl
    obtain ⟨e, he, rfl⟩ := hl
    exact .inr ⟨base ++ e, rfl, hexts e he, (ho _).within hd.toWithin⟩

theorem stored_newFile (hlog : ∀ id, logger.file = some id → id < fs.nextId) (bytes : ByteArray) :
    Stored logger fs (.file fs.freshId newFileMode bytes) := by
  refine ⟨_, _, _, rfl, fun hid => ?_, by simp [canRead, Node.ownerBits, newFileMode]⟩
  exact Nat.lt_irrefl _ (Nat.lt_of_lt_of_le (hlog _ hid) (le_freshId fs))

theorem Step.of_moved (hlog : ∀ id, logger.file = some id → id < fs.nextId)
    (hm : Artifact.Moved c.corpusLoc t.outputLoc n fs fs') (hn : Path.ext n ≠ c.corpusExt)
    {id mode : Nat} {bytes : ByteArray}
    (hg : fs.get? (c.corpusLoc ++ [n]) = some (.file id mode bytes))
    (hid : logger.file ≠ some id) (hread : fs.canRead (.file id mode bytes) = true) :
    Step c logger (some (t, n)) fs fs' ∧
      ∃ id' mode', fs'.get? (t.outputLoc ++ [n]) = some (.file id' mode' bytes) := by
  obtain ⟨id', mode', harrived, hstored⟩ : ∃ id' mode',
      fs'.get? (t.outputLoc ++ [n]) = some (.file id' mode' bytes) ∧
      Stored logger fs (.file id' mode' bytes) := by
    rw [hm.arrived id mode bytes hg]
    split
    · exact ⟨id, mode, rfl, id, mode, bytes, rfl, hid, hread⟩
    · exact ⟨_, _, rfl, stored_newFile hlog bytes⟩
  refine ⟨⟨hm.terms, hm.nextId, fun l => ?_⟩, id', mode', harrived⟩
  by_cases hl : l = t.outputLoc ++ [n]
  · refine .inr (.inr ⟨t, n, rfl, hl, fun m hm' => ?_⟩)
    rw [hl, harrived, Option.some.injEq] at hm'
    rw [← hm']
    exact hstored.congr hm.terms
  by_cases hl' : l = c.corpusLoc ++ [n]
  · refine .inr (.inl ⟨n, hl', hn, fun m hm' => ?_⟩)
    rw [hl', hm.left] at hm'
    cases hm'
  · exact .inl (.inl (hm.rest l hl' hl))

variable (ha : c.Apart) (ht : t ∈ c.tools) (hb : Built t.outputLoc fs fs')

include ha ht hb

theorem Ready.built (hr : Ready c logger fs₁ fs) : Ready c logger fs₁ fs' := by
  have hf := hb.toFurnished
  have hbeside : ∀ s, fs'.get? (c.corpusLoc ++ [s]) = fs.get? (c.corpusLoc ++ [s]) := fun s =>
    hb.rest _ fun hl => ha.out_corpus t ht ((List.prefix_append _ [s]).trans hl)
  have hpass : ∀ {loc : Location}, fs.Passable loc → ∀ x, x <+: loc → fs'.get? x = fs.get? x := by
    intro loc hp x hx
    obtain ⟨mode, hmode, _⟩ := enter_eq_ok.mp (hp x hx)
    rw [hmode]
    exact hf.get?_some hmode
  refine ⟨hf.terms.trans hr.terms, by rw [hf.nextId]; exact hr.nextId,
    hr.corpus.congr hf.terms (hpass hr.corpus.passable), fun u hu => ?_,
    fun u hu => hb.road (hr.roads u hu), fun s m hm => ?_, fun s hs => ?_, fun u hu s m hm => ?_⟩
  · have hexe := hr.exe u hu
    obtain ⟨x, s, hsplit, hp⟩ := hexe.split
    obtain ⟨m, hm, hd⟩ := hexe.node
    refine ⟨hexe.nameable, ⟨x, s, hsplit, hp.congr hf.terms (hpass hp)⟩, ⟨m, hf.get?_some hm, hd⟩, ?_⟩
    rw [hf.linkAt]
    exact hexe.link
  · rw [hbeside] at hm
    exact hr.beside s m hm
  · rw [hbeside]
    exact hr.sources s hs
  · rw [hb.rest] at hm
    · exact (hr.stored u hu s m hm).congr hf.terms
    · intro hl
      have hut := ha.out_out u hu t ht ((List.prefix_append _ [s]).trans hl)
      subst u
      exact not_prefix_of_append _ _ hl

end Steps

theorem beside_ne_out {c : Config} {t : Tool} (hc : c.Separate) (ht : t ∈ c.tools) {l : Location} {s : String}
    (hl : t.outputLoc <+: l) : l ≠ c.corpusLoc ++ [s] := by
  rintro rfl
  rcases List.prefix_concat_iff.mp hl with he | hl
  · refine hc.out_corpus t ht ?_
    rw [he]
    exact List.prefix_append _ _
  · exact hc.corpus_out t ht hl

/-- Once all output directories could be cleared, nothing is left of them, and all that is there
above them are directories. -/
theorem reset_cleared {fs fs' : FileSystem} {tools : List Tool} (hs : fs.Sound)
    (hout : ∀ t ∈ tools, Path.IsClean t.outputDir ∧ t.outputLoc ≠ [] ∧ fs.Straight t.outputLoc)
    (h : reset fs tools = (fs', none)) :
    fs'.Sound ∧ Within fs' fs ∧ fs'.nextId = fs.nextId ∧
      (∀ l, (∀ t ∈ tools, ¬ t.outputLoc <+: l) → fs'.get? l = fs.get? l) ∧
      ∀ t ∈ tools, (∀ l, t.outputLoc <+: l → fs'.get? l = none) ∧
        ∀ x, x <+: t.outputLoc.dropLast → fs'.Only x fun n => n.isDir = true := by
  induction tools generalizing fs with
  | nil =>
    cases h
    exact ⟨hs, .refl _, rfl, fun _ _ => rfl, by simp⟩
  | cons t rest ih =>
    obtain ⟨hclean, hne, hstraight⟩ := hout t (by simp)
    rw [reset] at h
    split at h
    · rename_i fs₁ hr
      rw [hclean.eq_toLocation] at hr
      obtain hnil | ⟨loc, n, hsplit⟩ := List.eq_nil_or_concat t.outputLoc
      · exact absurd hnil hne
      rw [List.concat_eq_append] at hsplit
      have hnames : ∀ s ∈ loc ++ [n], Path.IsName s := by
        rw [← hsplit]
        exact fun s hs => hclean.isName hs
      have hc : Cleared t.outputLoc fs fs₁ := by
        rw [← Tool.outputLoc, hsplit] at hr
        rw [hsplit] at hstraight ⊢
        exact removeAll_cleared hs hstraight hnames hr
      obtain ⟨hs', hw, hid, hget, hgone⟩ := ih (hc.sound hs)
        (fun u hu => ⟨(hout u (by simp [hu])).1, (hout u (by simp [hu])).2.1,
          (hout u (by simp [hu])).2.2.within hc.pruned.within⟩) h
      refine ⟨hs', hw.trans hc.pruned.within, hid.trans hc.pruned.nextId, fun l hl => ?_,
        fun u hu => ?_⟩
      · rw [hget l fun u hu => hl u (by simp [hu]), hc.pruned.get?_of_not_prefix (hl t (by simp))]
      · rcases List.mem_cons.mp hu with rfl | hu
        · refine ⟨fun l hl => ?_, fun x hx => ?_⟩
          · rw [Option.eq_none_iff_forall_ne_some]
            intro m hm
            have hm' := hw.get? l m hm
            rw [hc.gone l hl] at hm'
            cases hm'
          · exact (hc.above x hx).within (hw.trans hc.pruned.within)
        · exact hgone u hu
    · cases h

theorem road_of_cleared {fs fs₁ : FileSystem} {loc : Location} {n : String} (hs : fs₁.Sound)
    (hw : Within fs₁ fs) (hget : ∀ x, x <+: loc → fs₁.get? x = fs.get? x)
    (hgone : fs₁.get? (loc ++ [n]) = none)
    (hdirs : ∀ x, x <+: loc → fs₁.Only x fun n => n.isDir = true)
    (hroot : (fs₁.get? []).isSome = true) (hacc : fs.Accessible loc) : fs₁.Road (loc ++ [n]) := by
  have hdir : ∀ {x m}, x <+: loc → fs₁.get? x = some m →
      ∃ mode, m = .dir mode ∧ fs.get? x = some (.dir mode) := by
    intro x m hx hm
    cases m with
    | dir mode => exact ⟨mode, rfl, by rw [← hget x hx, hm]⟩
    | file | link | fifo => exact absurd (hdirs x hx _ hm) Bool.false_ne_true
  refine ⟨hroot, fun x hx m hm => ?_, fun x s _ hnone => hs.none_below (List.prefix_append x [s]) hnone,
    fun x s hx hnone m hm => ?_, fun m hm => ?_⟩
  · rcases List.prefix_concat_iff.mp hx with rfl | hx
    · rw [hgone] at hm
      cases hm
    · obtain ⟨mode, rfl, hmode⟩ := hdir hx hm
      refine ⟨rfl, ?_⟩
      rw [canSearch_of_terms hw.terms]
      exact (hacc x mode hx hmode).1
  · have hx' : x <+: loc := by
      rcases List.prefix_concat_iff.mp ((List.prefix_append x [s]).trans hx) with rfl | hx'
      · exact absurd hx (not_prefix_of_append _ _)
      · exact hx'
    obtain ⟨mode, rfl, hmode⟩ := hdir hx' hm
    refine (canWrite_of_terms hw.terms _).trans ((hacc x mode hx' hmode).2 fun s' hs' => ?_)
    -- of the places right below one that is on the way, only one is on the way
    have hsame : x ++ [s'] = x ++ [s] := by
      have hp := List.prefix_of_prefix_length_le (hs'.trans (List.prefix_append loc [n])) hx (by simp)
      exact hp.eq_of_length (by simp)
    rw [← hget _ hs', hsame, hnone]
  · rw [hgone] at hm
    cases hm

theorem exists_name_of_discover {c : Config} {fs : FileSystem} {cases : List TestCase}
    {test : TestCase} (hclean : Path.IsClean c.corpusDir) (hstraight : fs.Straight c.corpusLoc)
    (hnamed : fs.Named) (hcases : Corpus.discover fs c.corpusDir c.corpusExt = .ok cases)
    (htest : test ∈ cases) :
    ∃ name, Path.IsName name ∧ Path.ext name = c.corpusExt ∧
      (fs.get? (c.corpusLoc ++ [name])).isSome = true ∧
      test = Corpus.caseOf c.corpusDir c.corpusExt name ∧
      test.path = Path.toLocation (c.corpusLoc ++ [name]) ∧ fs.isRegularFile test.path = true := by
  have hnames : ∀ s ∈ c.corpusLoc, Path.IsName s := fun s hs => hclean.isName hs
  obtain ⟨loc, name, hspot, rfl, hsome, hext, hregular⟩ := Corpus.mem_discover hcases htest
  rw [hclean.eq_toLocation] at hspot
  obtain ⟨rfl, _, _⟩ := hstraight.spot_node hnames hspot
  have hname := Corpus.isName_of_isSome hnamed hsome
  refine ⟨name, hname, hext, hsome, rfl, ?_, hregular⟩
  rw [Corpus.caseOf, hclean.eq_toLocation, ← Config.corpusLoc, Path.join_toLocation hnames hname]

theorem nameable_of_discover {c : Config} {fs : FileSystem} {cases : List TestCase}
    (hclean : Path.IsClean c.corpusDir) (hstraight : fs.Straight c.corpusLoc)
    (hcases : Corpus.discover fs c.corpusDir c.corpusExt = .ok cases) : Nameable c.corpusLoc := by
  obtain ⟨loc, _, hspot, _⟩ := Corpus.discover_eq_ok hcases
  rw [hclean.eq_toLocation] at hspot
  exact (hstraight.spot_node (fun s hs => hclean.isName hs) hspot).2.2

theorem openDir_of_discover {c : Config} {fs : FileSystem} {cases : List TestCase}
    (hclean : Path.IsClean c.corpusDir) (hstraight : fs.Straight c.corpusLoc)
    (hchange : fs.mayChange c.corpusLoc = true)
    (hcases : Corpus.discover fs c.corpusDir c.corpusExt = .ok cases) : fs.OpenDir c.corpusLoc := by
  obtain ⟨loc, mode, hspot, hmode, _⟩ := Corpus.discover_eq_ok hcases
  rw [hclean.eq_toLocation] at hspot
  obtain ⟨rfl, henter, _⟩ := hstraight.spot_node (fun s hs => hclean.isName hs) hspot
  obtain ⟨m, hm, _, hsearch⟩ := mayChange_eq_true.mp hchange
  rw [hmode, Option.some.injEq] at hm
  subst m
  refine ⟨fun x hx => ?_, hchange⟩
  by_cases hx' : x = c.corpusLoc
  · subst x
    exact enter_eq_ok.mpr ⟨mode, hmode, hsearch⟩
  · exact henter x hx hx'

/-- A session that finds its corpus after it has cleared its output directories can begin. -/
theorem reset_ready {c : Config} {fs fs₁ : FileSystem} {cases : List TestCase} (ha : c.Apart)
    (hfit : c.Fits fs) (hfeasible : c.Feasible fs) (hreset : reset fs c.tools = (fs₁, none))
    (hcases : Corpus.discover fs₁ c.corpusDir c.corpusExt = .ok cases) (logger : Log.Logger) :
    Ready c logger fs₁ fs₁ := by
  obtain ⟨hs, hw, _, hget, hgone⟩ := reset_cleared hfit.sound
    (fun t ht => ⟨ha.out t ht, ha.outputLoc_ne_nil ht, hfit.out t ht⟩) hreset
  have hcorpus : ∀ x, x <+: c.corpusLoc → fs₁.get? x = fs.get? x := fun x hx =>
    hget x fun t ht hp => ha.corpus_out t ht (hp.trans hx)
  have hopen : fs₁.OpenDir c.corpusLoc := by
    refine openDir_of_discover ha.corpus (hfit.corpus.within hw) ?_ hcases
    rw [mayChange_congr hw.terms (hcorpus _ (List.prefix_refl _)), hfeasible.corpus]
  have hroot := hopen.passable [] List.nil_prefix
  refine ⟨rfl, Nat.le_refl _, hopen, fun t ht => ?_, fun t ht => ?_, fun s => (hfit.files s).within hw,
    fun _ _ => .refl _ _, fun t ht s m hm => ?_⟩
  · have hroot' : fs.enter [] = .ok () := by
      obtain ⟨mode, hmode, hsearch⟩ := enter_eq_ok.mp hroot
      rw [hcorpus [] List.nil_prefix] at hmode
      rw [canSearch_of_terms hw.terms] at hsearch
      exact enter_eq_ok.mpr ⟨mode, hmode, hsearch⟩
    have hexists := (hfit.exe t ht).2
    rw [(ha.exe t ht).eq_toLocation] at hexists
    have hfile := (hfit.exe t ht).1.hasFile (fun s hs => (ha.exe t ht).isName hs) hroot' hexists
    refine hfile.congr hw.terms fun x hx => hget x fun u hu hp => ?_
    exact ha.exe_out u hu t ht (hp.trans hx)
  · obtain ⟨hnone, hdirs⟩ := hgone t ht
    have hacc := hfeasible.above t ht
    obtain hnil | ⟨loc, n, hsplit⟩ := List.eq_nil_or_concat t.outputLoc
    · exact absurd hnil (ha.outputLoc_ne_nil ht)
    rw [List.concat_eq_append] at hsplit
    have habove : ∀ x, x <+: loc → fs₁.get? x = fs.get? x := by
      refine fun x hx => hget x fun u hu hp => ?_
      have hut := ha.out_out u hu t ht (by
        rw [hsplit]
        exact hp.trans (hx.trans (List.prefix_append loc [n])))
      subst u
      rw [hsplit] at hp
      exact not_prefix_of_append _ _ (hp.trans hx)
    rw [hsplit] at hnone hdirs hacc ⊢
    rw [List.dropLast_concat] at hdirs hacc
    obtain ⟨mode, hmode, _⟩ := enter_eq_ok.mp hroot
    exact road_of_cleared hs hw habove (hnone _ (List.prefix_refl _)) hdirs (by rw [hmode]; rfl) hacc
  · rw [(hgone t ht).1 _ (List.prefix_append _ [s])] at hm
    cases hm

end Session

end Crosscheck
