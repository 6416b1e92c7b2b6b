import Crosscheck.Proofs.Fault

namespace Crosscheck

def Message.Operand.isValue : Message.Operand → Bool
  | .text _ | .number _ | .flag _ => true
  | .error .. | .absent => false

/-- A remark, the texts, numbers and truth values that are filled into it, and the number of the
error that it makes. -/
structure Remark where
  id : Nat
  template : String
  operands : List Message.Operand
  values : ∀ o ∈ operands, o.isValue = true := by decide

namespace Fault

def remarkAll (f : Option Fault) (remarks : List Remark) : Option Fault :=
  remarks.foldl (fun f r => some (wrap r.id f r.template r.operands)) f

def shownInside : Option Fault → String
  | none => "%!w(<nil>)"
  | some f => f.message

theorem show_operand_w (inner : Option Fault) :
    String.ofList ((operand inner).show (Message.Style.forVerb {} 'w') 'w') =
      shownInside inner := by
  cases inner with
  | none => decide
  | some f =>
    cases f with
    | start o => exact (congrArg _ (Message.show_error_w ..)).trans (String.ofList_toList ..)
    | around _ _ text form =>
      exact (congrArg _ (Message.show_error_w form text)).trans (String.ofList_toList ..)

theorem exists_message_wrap (id : Nat) (inner : Option Fault) (template : String)
    (operands : List Message.Operand) :
    ∃ rest, (wrap id inner template operands).message = shownInside inner ++ ": " ++ rest ∧
      (Message.Unindexed template → rest = (Message.render template operands).text) := by
  rw [message_wrap, ← show_operand_w]
  exact Message.text_wrapping ..

theorem chain_wrap (id : Nat) (inner : Option Fault) (template : String)
    (operands : List Message.Operand) :
    (wrap id inner template operands).chain = .made id :: inner.elim [] chain := by
  obtain ⟨more, hwraps⟩ := Message.wraps_wrapping (operand inner) operands template
  rw [wrap, ← hwraps]
  cases more <;> cases inner <;> rfl

theorem matchesTarget_wrap (id : Nat) (inner : Option Fault) (template : String)
    (operands : List Message.Operand) (target : Fault) :
    matchesTarget (some (wrap id inner template operands)) (some target) = true ↔
      target.identity = .made id ∨ matchesTarget inner (some target) = true := by
  rw [matchesTarget, List.contains_iff_mem, chain_wrap, List.mem_cons]
  cases inner with
  | none => simp [matchesTarget]
  | some f => simp [matchesTarget]

/-- Remarks hide nothing of what an error goes back to, and all that they add to it is the errors
that they make. -/
theorem matchesTarget_remarkAll (base : Option Fault) (remarks : List Remark) (target : Fault) :
    matchesTarget (remarkAll base remarks) (some target) = true ↔
      matchesTarget base (some target) = true ∨ ∃ r ∈ remarks, target.identity = .made r.id := by
  induction remarks generalizing base with
  | nil => simp [remarkAll]
  | cons r remarks ih =>
    have hnext := matchesTarget_wrap r.id base r.template r.operands target
    rw [remarkAll, List.foldl_cons, ← remarkAll, ih, hnext]
    simp only [List.mem_cons, exists_eq_or_imp]
    rw [or_assoc, or_left_comm]

theorem remarkAll_append (base : Option Fault) (before : List Remark) (r : Remark) :
    remarkAll base (before ++ [r]) =
      some (wrap r.id (remarkAll base before) r.template r.operands) := by
  rw [remarkAll, List.foldl_append]
  rfl

/-- A remark that wraps the error a second time, and a text, which cannot be wrapped. -/
def twiceRemark : Remark where
  id := 1
  template := "%[1]w and %w"
  operands := [.text "x"]

def shortRemark : Remark where
  id := 2
  template := "%d of %s"
  operands := [.text "x"]

end Fault

end Crosscheck
