import Mathlib.Algebra.Group.Nat.Defs
import Crosscheck.Proofs.Message.Operands
import Crosscheck.Runner
import Crosscheck.Settings.Load

namespace Crosscheck

open Message (Part templateOf operandsOf textOf)

namespace Message

theorem Style.text_bare (s : String) : ({} : Style).text s = s.toList := by
  simp [Style.text, Style.pad, Style.padding, Style.cut]

@[simp] theorem show_text_s (s : String) :
    (Operand.text s).show (Style.forVerb {} 's') 's' = s.toList := Style.text_bare s

@[simp] theorem show_text_v (s : String) :
    (Operand.text s).show (Style.forVerb {} 'v') 'v' = s.toList := Style.text_bare s

@[simp] theorem show_text_q (s : String) :
    (Operand.text s).show (Style.forVerb {} 'q') 'q' = (Text.quoted s).toList := by
  change ({} : Style).quotedText s = _
  simp [Style.quotedText, Style.pad, Style.padding, Style.cut, Text.quoted, Text.piecesOf]

@[simp] theorem show_error_v (form : Form) (s : String) :
    (Operand.error form s).show (Style.forVerb {} 'v') 'v' = s.toList := Style.text_bare s

@[simp] theorem show_error_w (form : Form) (s : String) :
    (Operand.error form s).show (Style.forVerb {} 'w') 'w' = s.toList := Style.text_bare s

theorem show_number_d {n : Nat} (hn : n < 2 ^ 63) :
    (Operand.number (Int64.ofNat n)).show (Style.forVerb {} 'd') 'd' = Nat.toDigits 10 n := by
  have hi : (Int64.ofNat n).toInt = n := Int64.toInt_ofNat_of_lt (by simpa using hn)
  change ({} : Style).integer 10 false false (Int64.ofNat n).toInt = _
  rw [hi]
  simp [Style.integer, Style.padBlank, Style.pad, Style.padding, Style.cased, Text.padded,
    List.leftpad]

end Message

namespace Fault

/-- A known cause can only be where an error starts. -/
theorem known_mem_chain (c : Cause) : ∀ f : Fault, .known c ∈ f.chain ↔ f.cause? = some c
  | start (.known d) => by simp [chain, cause?, Origin.identity, eq_comm]
  | start (.fresh _ _) => by simp [chain, cause?, Origin.identity]
  | around _ none _ _ => by simp [chain, cause?]
  | around _ (some inner) _ _ => by simp [chain, cause?, known_mem_chain c inner]

theorem matchesTarget_known (f : Fault) (c : Cause) :
    matchesTarget (some f) (some (start (.known c))) = decide (f.cause? = some c) := by
  rw [Bool.eq_iff_iff, decide_eq_true_iff, ← known_mem_chain c f]
  exact List.contains_iff_mem

theorem causes_of_cause? {f : Fault} {c : Cause} (h : f.cause? = some c) :
    causes (some f) = [c] := by
  simp only [causes, matchesTarget_known, h]
  cases c <;> decide

theorem causes_of_cause?_none {f : Fault} (h : f.cause? = none) : causes (some f) = [] := by
  simp [causes, matchesTarget_known, h]

@[simp] theorem message_fresh (id : Nat) (text : String) :
    (start (.fresh id text)).message = text := rfl

@[simp] theorem show_operand_v (f : Fault) :
    (operand (some f)).show (Message.Style.forVerb {} 'v') 'v' = f.message.toList := by
  cases f <;> exact Message.show_error_v _ _

theorem message_wrap (id : Nat) (inner : Option Fault) (template : String)
    (operands : List Message.Operand) :
    (wrap id inner template operands).message =
      (Message.render ("%w: " ++ template) (operand inner :: operands)).text := by
  rw [wrap]
  split <;> rfl

theorem cause?_wrap (id : Nat) (inner : Option Fault) (template : String)
    (operands : List Message.Operand) :
    (wrap id inner template operands).cause? = inner.bind cause? := by
  obtain ⟨more, hwraps⟩ := Message.wraps_wrapping (operand inner) operands template
  rw [wrap, ← hwraps]
  cases more <;> cases inner <;> rfl

/-- A known cause with a remark around it. It is looked at for its text and its cause only, so that
its number does not matter. -/
def remarked (c : Cause) (ps : List Part) : Fault :=
  wrap 0 (some (start (.known c))) (templateOf ps) (operandsOf ps)

theorem cause?_remarked (c : Cause) (ps : List Part) : (remarked c ps).cause? = some c :=
  cause?_wrap ..

theorem message_remarked (c : Cause) {ps : List Part} {remark : String} (hps : ∀ p ∈ ps, p.Plain)
    (htext : ps.flatMap Part.text = remark.toList) :
    (remarked c ps).message = c.because remark := by
  let all : List Part := .shown 'w' (.error .plain c.text) :: .said ": " :: ps
  have htemplate : "%w: " ++ templateOf ps = templateOf all := by
    apply String.ext
    simp [all, templateOf, Part.template]
  have hplain : ∀ p ∈ all, p.Plain := by
    simp only [all, List.mem_cons, forall_eq_or_imp]
    exact ⟨by simp [Part.Plain], by decide, hps⟩
  rw [remarked, message_wrap, htemplate]
  change (Message.render (templateOf all) (operandsOf all)).text = _
  rw [Message.render_parts hplain]
  apply String.ext
  simp [all, textOf, Part.text, htext, Cause.because]

end Fault

/-- The system's own errors have no known cause. -/
def OsError.fault (e : OsError) : Fault := .start (.fresh 0 e.message)

@[simp] theorem OsError.message_fault (e : OsError) : e.fault.message = e.message := rfl

namespace ToolFault

def parts : ToolFault → List Part
  | noName => [.said "tool has no name"]
  | noPath t => [.said "tool ", .shown 'q' (.text t), .said " has no executable path"]
  | noOutputDir t => [.said "tool ", .shown 'q' (.text t), .said " has no output directory"]
  | unknownRole t r =>
    [.said "tool ", .shown 'q' (.text t), .said " has unknown role ", .shown 'q' (.text r)]
  | noWindowTitle t =>
    [.said "tool ", .shown 'q' (.text t), .said " dismisses windows but has no window title"]
  | byproduct t e =>
    [.said "tool ", .shown 'q' (.text t), .said " by-product extension ", .shown 'q' (.text e),
      .said " must start with a dot"]

def fault (f : ToolFault) : Fault := .remarked .invalidTool f.parts

@[simp] theorem message_fault (f : ToolFault) : f.fault.message = f.message := by
  apply Fault.message_remarked
  · cases f <;> simp [parts, Part.Plain]
  · cases f <;> simp [parts, Part.text, remark]

end ToolFault

namespace ConfigFault

def parts : ConfigFault → List Part
  | noCorpusDir => [.said "corpus directory is not set"]
  | corpusExtension e =>
    [.said "corpus extension ", .shown 'q' (.text e), .said " must start with a dot"]
  | artifactExtension e =>
    [.said "artifact extension ", .shown 'q' (.text e), .said " must start with a dot"]
  | timing n d =>
    [.said "timing.", .shown 's' (.text n), .said " must be positive, got ",
      .shown 'v' (.text d.render)]
  | tool f => [.shown 'v' (Fault.operand (some f.fault))]
  | references n =>
    [.said "exactly one reference tool is required, got ", .shown 'd' (.number (Int64.ofNat n))]
  | noCandidate => [.said "at least one candidate tool is required"]
  | duplicateNames ns => [.said "duplicate tool names: ", .shown 's' (.text (", ".intercalate ns))]
  | sharedDirs ds =>
    [.said "tools share output directories: ", .shown 's' (.text (", ".intercalate ds))]

def fault (f : ConfigFault) : Fault := .remarked .invalidConfig f.parts

theorem message_fault {f : ConfigFault} (hcount : ∀ n, f = .references n → n < 2 ^ 63) :
    f.fault.message = f.message := by
  apply Fault.message_remarked
  · cases f <;> simp [parts, Part.Plain]
  · rw [remark.eq_def]
    cases f with
    | references n => simp [parts, Part.text, Message.show_number_d (hcount n rfl)]
    | _ => simp [parts, Part.text]

theorem causes_fault (f : ConfigFault) : Fault.causes (some f.fault) = [.invalidConfig] :=
  Fault.causes_of_cause? (Fault.cause?_remarked ..)

end ConfigFault

namespace Settings.LoadFault

/-- The error as it is put together. What the decoder or the system says is only shown in it. -/
def fault : LoadFault → Fault
  | undecodable fs =>
    .remarked .invalidConfig
      [.shown 'v' (Fault.operand (some (.start (.fresh 0 (faultsMessage fs)))))]
  | noProgram reason =>
    .remarked .invalidConfig [.said "cannot locate harness executable: ",
      .shown 'v' (Fault.operand (some (.start (.fresh 0 reason))))]
  | noRoot root reason =>
    .remarked .invalidConfig [.said "cannot resolve root ", .shown 'q' (.text root), .said ": ",
      .shown 'v' (Fault.operand (some (.start (.fresh 0 reason))))]
  | invalid f => f.fault

theorem message_fault {f : LoadFault} (hcount : ∀ n, f = .invalid (.references n) → n < 2 ^ 63) :
    f.fault.message = f.message := by
  cases f with
  | invalid f => exact ConfigFault.message_fault fun n hn => hcount n (by rw [hn])
  | _ =>
    apply Fault.message_remarked
    · simp [Part.Plain]
    · simp [Part.text]

theorem causes_fault (f : LoadFault) : Fault.causes (some f.fault) = [.invalidConfig] := by
  cases f with
  | invalid f => exact f.causes_fault
  | _ => exact Fault.causes_of_cause? (Fault.cause?_remarked ..)

end Settings.LoadFault

namespace Corpus.Fault

def parts : Corpus.Fault → List Part
  | notFound dir => [.shown 's' (.text dir)]
  | unreadable dir e =>
    [.shown 's' (.text dir), .said ": ", .shown 'v' (Crosscheck.Fault.operand (some e.fault))]
  | empty ext dir =>
    [.said "no ", .shown 's' (.text ext), .said " files in ", .shown 's' (.text dir)]

def fault (f : Corpus.Fault) : Crosscheck.Fault := .remarked f.cause f.parts

theorem message_fault (f : Corpus.Fault) : f.fault.message = f.message := by
  apply Crosscheck.Fault.message_remarked
  · cases f <;> simp [parts, Part.Plain]
  · cases f <;> simp [parts, Part.text]

theorem causes_fault (f : Corpus.Fault) : Crosscheck.Fault.causes (some f.fault) = [f.cause] :=
  Crosscheck.Fault.causes_of_cause? (Crosscheck.Fault.cause?_remarked ..)

end Corpus.Fault

namespace Artifact.Fault

/-- The error as it is put together; nothing is put around an error of the system. -/
def fault : Artifact.Fault → Crosscheck.Fault
  | missing p => .remarked .missingArtifact [.shown 's' (.text p)]
  | directory p => .remarked .missingArtifact [.shown 's' (.text p), .said " is a directory"]
  | os e => e.fault

theorem message_fault (f : Artifact.Fault) : f.fault.message = f.message := by
  cases f with
  | missing | directory =>
    apply Crosscheck.Fault.message_remarked
    · simp [Part.Plain]
    · simp [Part.text]
  | os e => rfl

theorem cause?_fault (f : Artifact.Fault) : f.fault.cause? = f.cause? := by
  cases f with
  | missing | directory => exact Crosscheck.Fault.cause?_remarked ..
  | os e => rfl

end Artifact.Fault

namespace RunFault

/-- The error as it is put together. What went wrong with a process, or kept a leftover from being
removed, is only shown in it. -/
def fault : RunFault → Fault
  | toolNotFound p => .remarked .toolNotFound [.shown 's' (.text p)]
  | inputNotFound p => .remarked .inputNotFound [.shown 's' (.text p)]
  | staleArtifact p e =>
    .remarked .processFailed [.said "removing stale ", .shown 's' (.text p), .said ": ",
      .shown 'v' (Fault.operand (some e.fault))]
  | cancelled =>
    .remarked .processFailed
      [.shown 'v' (Fault.operand (some (.start (.fresh 0 "context canceled"))))]
  | timedOut d => .remarked .timeout [.said "killed after ", .shown 'v' (.text d.render)]
  | processFailed exe ending =>
    .remarked .processFailed
      [.shown 'v' (Fault.operand (some (.start (.fresh 0 (endingText exe ending)))))]
  | artifact f => f.fault

theorem message_fault (f : RunFault) : f.fault.message = f.message := by
  cases f with
  | artifact f => exact f.message_fault
  | _ =>
    apply Fault.message_remarked
    · simp [Part.Plain]
    · simp [Part.text]

theorem cause?_fault (f : RunFault) : f.fault.cause? = f.cause? := by
  cases f with
  | artifact f => exact f.cause?_fault
  | _ => exact Fault.cause?_remarked ..

end RunFault

end Crosscheck
