import Crosscheck.Proofs.FileSystem.Visits
import Crosscheck.Proofs.Log.Lines
import Crosscheck.Proofs.Runner

namespace Crosscheck

namespace FileSystem

variable {fs fs' : FileSystem} {p : String}

@[simp] theorem appendTo_empty (fs : FileSystem) (id : Nat) :
    fs.appendTo id ByteArray.empty = fs := by
  have hkept (n : Node) : n.updated id (· ++ ByteArray.empty) = n := by
    cases n with
    | file i mode old => by_cases hi : i = id <;> simp [Node.updated, hi]
    | dir | link | fifo => rfl
  simp only [appendTo, update, hkept, Prod.mk.eta, List.map_id']

theorem stat_appendTo {n : Node} (h : fs.stat p = .ok n) (id : Nat) (bytes : ByteArray) :
    (fs.appendTo id bytes).stat p = .ok (n.updated id (· ++ bytes)) := by
  obtain ⟨loc, hs, hn⟩ := stat_eq_ok h
  have hagree (x : Location) : Agree fs (fs.appendTo id bytes) x := by
    rw [Agree, get?_appendTo, Option.map_map]
    exact congrFun (congrArg Option.map (funext fun n => Node.outline_updated n id _)) _
  rw [stat, spot_congr (terms_appendTo ..) fun x _ => hagree x, hs]
  dsimp only
  rw [get?_appendTo, hn]
  rfl

theorem openWrite_spot {access : Node → Bool} {loc : Location}
    (h : fs.openWrite p access = .ok (fs', loc)) :
    (∃ d s, fs.spot true p = .ok (.gap d s) ∧ loc = d ++ [s] ∧
      fs' = fs.addFile loc newFileMode ByteArray.empty) ∨
    (fs.spot true p = .ok (.node loc) ∧ fs' = fs) := by
  rw [openWrite] at h
  split at h
  · cases h
  split at h
  · cases h
  · rename_i d s hs
    split at h
    · cases h
      exact .inl ⟨d, s, hs, rfl, rfl⟩
    · cases h
  · rename_i l hs
    split at h
    · cases h
    split at h
    · cases h
    split at h
    · cases h
      exact .inr ⟨hs, rfl⟩
    · cases h

theorem addFile_retains {loc : Location} (h : fs.get? loc = none) (mode : Nat)
    (bytes : ByteArray) : Retains fs (fs.addFile loc mode bytes) := by
  refine ⟨terms_addFile .., fun x n hn => .of_eq ?_⟩
  have hne : x ≠ loc := by
    rintro rfl
    rw [h] at hn
    cases hn
  rw [get?_addFile, if_neg hne]

theorem stat_openAppend {id : Nat} (h : fs.openAppend p = .ok (fs', id))
    (hregular : ∀ n, fs.stat p = .ok n → n.isRegular = true) :
    ∃ mode, fs'.stat p = .ok (.file id mode ((fs.bytesAt? p).getD ByteArray.empty)) := by
  rw [openAppend] at h
  split at h
  · cases h
  rename_i opened loc ho
  obtain ⟨d, s, hs, rfl, rfl⟩ | ⟨hs, rfl⟩ := openWrite_spot ho
  · -- the new file stands where nothing was
    have hfree := (spot_gap hs).2.1
    have hnew : (fs.addFile (d ++ [s]) newFileMode ByteArray.empty).get? (d ++ [s]) =
        some (.file fs.freshId newFileMode ByteArray.empty) := by
      rw [get?_addFile, if_pos rfl]
    have hlink : (fs.addFile (d ++ [s]) newFileMode ByteArray.empty).linkAt (d ++ [s]) = none := by
      rw [linkAt, hnew]
    have hspot := (addFile_retains hfree newFileMode ByteArray.empty).spot_filled hs hnew hlink
    have hnone : fs.bytesAt? p = none := by
      rw [bytesAt?, stat, hs]
      rfl
    rw [hnew] at h
    cases h
    refine ⟨newFileMode, ?_⟩
    rw [stat, hspot, hnone]
    dsimp only
    rw [hnew]
    rfl
  · obtain ⟨n, hn⟩ := spot_node hs
    have hstat : opened.stat p = .ok n := by
      rw [stat, hs]
      dsimp only
      rw [hn]
    cases n with
    | file i mode old =>
      rw [hn] at h
      cases h
      exact ⟨mode, by rw [bytesAt?_of_stat hstat]; exact hstat⟩
    | dir | link | fifo => cases hregular _ hstat

end FileSystem

namespace Log

def fileText (lines : List String) : String := String.join (lines.map (· ++ "\n"))

@[simp] theorem fileText_nil : fileText [] = "" := rfl

theorem fileText_append (a b : List String) : fileText (a ++ b) = fileText a ++ fileText b := by
  simp [fileText, String.join_append]

def atLeast (level : Level) (records : List Record) : List Record :=
  records.filter (·.level.atLeast level)

def Record.carrying (r : Record) (attrs : List Attr) : Record :=
  { r with attrs := attrs ++ r.attrs }

namespace Logger

/-- All that a logger does with records: one line for each that it shows, and one at the end of its
file for each that it files. -/
def after (l : Logger) (w : World) (records : List Record) : World :=
  { w with
    log := w.log ++ ((atLeast l.threshold records).map l.record).map Record.textLine
    fs := match l.file with
      | some id => w.fs.appendTo id
          (fileText (((atLeast .debug records).map l.record).map Record.jsonLine)).toUTF8
      | none => w.fs }

variable {l : Logger}

theorem after_nil (l : Logger) (w : World) : l.after w [] = w := by
  rw [after]
  cases l.file <;> simp [atLeast]

theorem after_append (l : Logger) (w : World) (a b : List Record) :
    l.after (l.after w a) b = l.after w (a ++ b) := by
  rw [after, after, after]
  cases l.file with
  | none => simp [atLeast]
  | some id => simp [atLeast, fileText_append, FileSystem.appendTo_appendTo]

theorem log_eq (hshows : l.shows = true) (w : World) (r : Record) : l.log w r = l.after w [r] := by
  have hline : fileText [(l.record r).jsonLine] = (l.record r).jsonLine ++ "\n" := by
    simp [fileText]
  rw [log, after, hshows, Bool.and_true, showsAt]
  cases hfile : l.file with
  | none => cases hshown : r.level.atLeast l.threshold <;> simp [atLeast, hshown, World.noteLine]
  | some id =>
    cases hshown : r.level.atLeast l.threshold <;> cases hfiled : r.level.atLeast .debug <;>
      simp [atLeast, hshown, hfiled, World.noteLine, hline]

theorem foldl_log (hshows : l.shows = true) (w : World) (records : List Record) :
    records.foldl l.log w = l.after w records := by
  induction records generalizing w with
  | nil => exact (after_nil l w).symm
  | cons r rest ih =>
    rw [List.foldl_cons, ih, log_eq hshows, after_append]
    rfl

/-- Options with which a logger can be made: the level is empty, which stands for warnings, or it
can be read, and the file is empty or a regular file that may be appended to or made. -/
structure Acceptable (fs : FileSystem) (o : Options) (threshold : Level) : Prop where
  level : if o.level = "" then threshold = .warn else Level.parse? o.level = some threshold
  opens : o.file ≠ "" → ∃ opened, fs.openAppend o.file = .ok opened
  regular : o.file ≠ "" → ∀ n, fs.stat o.file = .ok n → n.isRegular = true

/-- What a stream of records has made of a world: its log has one more line for each record from
the threshold on, the file, if there is one, a line of JSON for each record from debug on, and
nothing else is said. A level is enabled where either takes the record. Every line is one line, and
one of the file reads as the document with all that its record says. -/
structure FansOut (w : World) (o : Options) (threshold : Level) (attrs : List Attr)
    (records : List Record) (l : Logger) (w' : World) : Prop where
  shown : w'.log = w.log ++ (atLeast threshold (records.map (·.carrying attrs))).map Record.textLine
  filed : o.file ≠ "" → w'.fs.bytesAt? o.file = some ((w.fs.bytesAt? o.file).getD ByteArray.empty ++
    (fileText ((atLeast .debug (records.map (·.carrying attrs))).map Record.jsonLine)).toUTF8)
  unfiled : o.file = "" → w'.fs = w.fs
  silent : w'.console = w.console ∧ w'.windows = w.windows
  enabled : ∀ level, l.enabled level = true ↔
    level.atLeast threshold = true ∨ o.file ≠ "" ∧ level.atLeast .debug = true
  single : ∀ r ∈ records.map (·.carrying attrs), '\n' ∉ r.textLine.toList ∧ '\n' ∉ r.jsonLine.toList
  reads : ∀ r ∈ records.map (·.carrying attrs), Json.read r.jsonLine.toList = .ok r.toJson

theorem Acceptable.threshold? {fs : FileSystem} {o : Options} {threshold : Level}
    (h : Acceptable fs o threshold) : Logger.threshold? o = some threshold := by
  have hlevel := h.level
  rw [Logger.threshold?]
  split at hlevel
  · rename_i hempty
    rw [if_pos hempty, hlevel]
  · rename_i hgiven
    rw [if_neg hgiven, hlevel]

theorem atLeast_carrying (level : Level) (attrs : List Attr) (records : List Record) :
    atLeast level (records.map (·.carrying attrs)) =
      (atLeast level records).map (·.carrying attrs) := by
  rw [atLeast, List.filter_map]
  rfl

theorem Acceptable.make_eq {fs : FileSystem} {o : Options} {threshold : Level}
    (h : Acceptable fs o threshold) :
    ∃ fs' file, make fs o = .ok (fs', { threshold, file }) ∧
      (o.file = "" → file = none ∧ fs' = fs) ∧
      (o.file ≠ "" → ∃ id mode, file = some id ∧
        fs'.stat o.file = .ok (.file id mode ((fs.bytesAt? o.file).getD ByteArray.empty))) := by
  rw [make, h.threshold?]
  dsimp only
  by_cases hfile : o.file = ""
  · rw [if_pos hfile]
    exact ⟨fs, none, rfl, fun _ => ⟨rfl, rfl⟩, fun hne => absurd hfile hne⟩
  · obtain ⟨⟨fs', id⟩, hopen⟩ := h.opens hfile
    obtain ⟨mode, hstat⟩ := FileSystem.stat_openAppend hopen (h.regular hfile)
    rw [if_neg hfile, hopen]
    exact ⟨fs', some id, rfl, fun hempty => absurd hempty hfile, fun _ => ⟨id, mode, rfl, hstat⟩⟩

/-- A logger shows and files every record where it belongs, in order and on one line each, whatever
text the records hold. Where the level is refused, the file is not even looked at. -/
theorem make_fansOut :
    (∀ (w : World) (o : Options) (threshold : Level) (attrs : List Attr) (records : List Record),
      Acceptable w.fs o threshold → (∀ r ∈ records, ∀ t ∈ r.time, '\n' ∉ t.toList) →
      ∃ fs l, make w.fs o = .ok (fs, l) ∧ FansOut w o threshold attrs records (l.adding attrs)
        (records.foldl (l.adding attrs).log { w with fs })) ∧
    ∀ (fs : FileSystem) (o : Options), o.level ≠ "" → Level.parse? o.level = none →
      make fs o = .error (.unknownLevel o.level) := by
  constructor
  · intro w o threshold attrs records haccept htime
    obtain ⟨fs, file, hmake, hnone, hsome⟩ := haccept.make_eq
    refine ⟨fs, { threshold, file }, hmake, ?_⟩
    rw [foldl_log rfl]
    refine ⟨?_, fun hfile => ?_, fun hfile => ?_, ⟨rfl, rfl⟩, fun level => ?_, fun r hr => ?_,
      fun r _ => r.read_jsonLine⟩
    · rw [atLeast_carrying]
      rfl
    · obtain ⟨id, mode, rfl, hstat⟩ := hsome hfile
      rw [atLeast_carrying]
      refine (FileSystem.bytesAt?_of_stat (FileSystem.stat_appendTo hstat id _)).trans ?_
      rw [Node.updated, if_pos rfl]
      rfl
    · obtain ⟨rfl, rfl⟩ := hnone hfile
      rfl
    · by_cases hfile : o.file = ""
      · obtain ⟨rfl, _⟩ := hnone hfile
        simp [enabled, showsAt, filesAt, adding, hfile]
      · obtain ⟨id, _, rfl, _⟩ := hsome hfile
        simp [enabled, showsAt, filesAt, adding, hfile]
    · obtain ⟨r, hmem, rfl⟩ := List.mem_map.mp hr
      exact ⟨Record.newline_textLine (htime r hmem), Record.newline_jsonLine _⟩
  · intro fs o hgiven hrefused
    rw [make, threshold?, if_neg hgiven, hrefused]

def startedLog : FileSystem where
  nodes := [([], .dir 0o755), (["l"], .file 0 0o644 "\x7b\x7d\n".toUTF8)]
  nextId := 1
  cwd := []
  mounts := []
  privileged := false

/-- Records below and above both thresholds, with line feeds in a key and in a message. -/
theorem make_fansOut_startedLog :
    let attrs := [Attr.mk "a\nb" (.number 1)]
    let records : List Record := [{ level := ⟨-5⟩, message := "trace" },
      { level := .debug, message := "one\ntwo" }, { level := .error, message := "" }]
    (∃ fs l, make startedLog ⟨"info+2", "/l"⟩ = .ok (fs, l) ∧
      FansOut { fs := startedLog } ⟨"info+2", "/l"⟩ ⟨2⟩ attrs records (l.adding attrs)
        (records.foldl (l.adding attrs).log { fs })) ∧
    make startedLog ⟨"loud", "/l"⟩ = .error (.unknownLevel "loud") := by
  have hopen : startedLog.openAppend "/l" = .ok (startedLog, 0) := rfl
  have hstat : startedLog.stat "/l" = .ok (.file 0 0o644 "\x7b\x7d\n".toUTF8) := rfl
  refine ⟨make_fansOut.1 { fs := startedLog } _ _ _ _ ⟨by decide +kernel, fun _ => ⟨_, hopen⟩, ?_⟩
    (by simp), make_fansOut.2 startedLog _ (by decide) (by decide +kernel)⟩
  rintro _ n hn
  rw [hstat] at hn
  cases hn
  rfl

end Logger

end Log

end Crosscheck
