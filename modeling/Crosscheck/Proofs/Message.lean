import Mathlib.Data.List.Basic
import Crosscheck.Message.Render

namespace Crosscheck.Message

/-- A part of a plain template: text that stands for itself, or an operand and the verb that shows
it. -/
inductive Part where
  | said (text : String)
  | shown (verb : Char) (operand : Operand)

def verbAlone (v : Char) : Directive :=
  ⟨{}, .absent, .absent, .absent, none, .absent, false, some v⟩

namespace Part

def template : Part → List Char
  | said s => s.toList
  | shown v _ => ['%', v]

def operand? : Part → Option Operand
  | said _ => none
  | shown _ o => some o

def segments : Part → List Segment
  | said s => s.toList.map .literal
  | shown v _ => [.directive (verbAlone v)]

def text : Part → List Char
  | said s => s.toList
  | shown v o => o.show (Style.forVerb {} v) v

def Plain : Part → Prop
  | said s => '%' ∉ s.toList
  | shown v _ => v ∈ ['w', 'v', 's', 'q', 'd']

instance : DecidablePred Plain
  | said s => inferInstanceAs (Decidable ('%' ∉ s.toList))
  | shown v _ => inferInstanceAs (Decidable (v ∈ ['w', 'v', 's', 'q', 'd']))

end Part

def templateOf (ps : List Part) : String := String.ofList (ps.flatMap Part.template)

def operandsOf (ps : List Part) : List Operand := ps.filterMap Part.operand?

def textOf (ps : List Part) : String := String.ofList (ps.flatMap Part.text)

theorem segmentsFrom_said {cs : List Char} (hcs : '%' ∉ cs) (rest : List Char) {fuel : Nat}
    (hfuel : cs.length ≤ fuel) :
    segmentsFrom fuel (cs ++ rest) = cs.map .literal ++ segmentsFrom (fuel - cs.length) rest := by
  induction cs generalizing fuel with
  | nil => rfl
  | cons c cs ih =>
    rw [List.mem_cons, not_or] at hcs
    cases fuel with
    | zero => simp at hfuel
    | succ fuel =>
      have hrest := ih hcs.2 (Nat.le_of_succ_le_succ hfuel)
      simp [segmentsFrom, Ne.symm hcs.1, hrest]

theorem readDirective_verb {v : Char} (hv : v ∈ ['w', 'v', 's', 'q', 'd']) (rest : List Char) :
    readDirective (v :: rest) = (verbAlone v, rest) := by
  simp only [List.mem_cons, List.not_mem_nil, or_false] at hv
  obtain rfl | rfl | rfl | rfl | rfl := hv <;> rfl

theorem segmentsFrom_parts {ps : List Part} (hps : ∀ p ∈ ps, p.Plain) {fuel : Nat}
    (hfuel : (ps.flatMap Part.template).length ≤ fuel) :
    segmentsFrom fuel (ps.flatMap Part.template) = ps.flatMap Part.segments := by
  induction ps generalizing fuel with
  | nil => cases fuel <;> rfl
  | cons p ps ih =>
    have hp := hps p List.mem_cons_self
    have hrest := fun {fuel} => @ih (fun q hq => hps q (List.mem_cons_of_mem p hq)) fuel
    rw [List.flatMap_cons, List.length_append] at hfuel
    rw [List.flatMap_cons, List.flatMap_cons]
    cases p with
    | said s =>
      rw [Part.template] at hfuel ⊢
      rw [segmentsFrom_said hp _ (Nat.le_of_add_right_le hfuel), Part.segments,
        hrest (Nat.le_sub_of_add_le' hfuel)]
    | shown v o =>
      obtain ⟨n, rfl⟩ : ∃ n, fuel = n + 1 := ⟨fuel - 1, by simp [Part.template] at hfuel; omega⟩
      have hlen : (ps.flatMap Part.template).length ≤ n := by
        simp only [Part.template, List.length_cons, List.length_nil] at hfuel
        omega
      simp [Part.template, segmentsFrom, readDirective_verb hp, Part.segments, hrest hlen]

theorem renderFrom_said (operands : List Operand) (c : Cursor) (cs : List Char)
    (rest : List Segment) :
    renderFrom operands c (cs.map .literal ++ rest) =
      (cs ++ (renderFrom operands c rest).1, (renderFrom operands c rest).2) := by
  induction cs with
  | nil => rfl
  | cons ch cs ih => simp [renderFrom, ih]

theorem renderFrom_verb {operands : List Operand} {o : Operand} {v : Char} {next : Nat}
    {wraps : List Nat} (hv : v ≠ '%') (ho : operands[next]? = some o) (rest : List Segment) :
    renderFrom operands ⟨next, false, true, wraps⟩ (.directive (verbAlone v) :: rest) =
      let (out, c) := renderFrom operands
        ⟨next + 1, false, true, if v = 'w' then wraps ++ [next] else wraps⟩ rest
      (o.show (Style.forVerb {} v) v ++ out, c) := by
  simp [renderFrom, Cursor.directive, verbAlone, Cursor.follow, Cursor.width, Cursor.precision,
    Cursor.verb, hv, ho, Style.ofFlags]

theorem renderFrom_parts {ps : List Part} (hps : ∀ p ∈ ps, p.Plain) (before : List Operand)
    (wraps : List Nat) :
    ∃ wraps', renderFrom (before ++ operandsOf ps) ⟨before.length, false, true, wraps⟩
        (ps.flatMap Part.segments) =
      (ps.flatMap Part.text, ⟨(before ++ operandsOf ps).length, false, true, wraps'⟩) := by
  induction ps generalizing before wraps with
  | nil => exact ⟨wraps, by simp [renderFrom, operandsOf]⟩
  | cons p ps ih =>
    have hp := hps p List.mem_cons_self
    have hrest := ih fun q hq => hps q (List.mem_cons_of_mem p hq)
    rw [List.flatMap_cons, List.flatMap_cons]
    cases p with
    | said s =>
      have hops : operandsOf (.said s :: ps) = operandsOf ps := rfl
      obtain ⟨wraps', h⟩ := hrest before wraps
      refine ⟨wraps', ?_⟩
      rw [Part.segments, renderFrom_said, hops, h]
      rfl
    | shown v o =>
      have hv : v ≠ '%' := by
        rintro rfl
        simp [Part.Plain] at hp
      have hops : before ++ operandsOf (.shown v o :: ps) = (before ++ [o]) ++ operandsOf ps := by
        simp [operandsOf, Part.operand?]
      have hnext : (before ++ [o]).length = before.length + 1 := by simp
      obtain ⟨wraps', h⟩ :=
        hrest (before ++ [o]) (if v = 'w' then wraps ++ [before.length] else wraps)
      refine ⟨wraps', ?_⟩
      rw [Part.segments, List.singleton_append, hops, renderFrom_verb (o := o) hv (by simp),
        ← hnext, h]
      rfl

/-- A plain template prints its parts one after the other and uses up its operands. -/
theorem render_parts {ps : List Part} (hps : ∀ p ∈ ps, p.Plain) :
    (render (templateOf ps) (operandsOf ps)).text = textOf ps := by
  have hsegments : Message.segments (templateOf ps) = ps.flatMap Part.segments := by
    rw [Message.segments, templateOf, String.toList_ofList]
    exact segmentsFrom_parts hps (Nat.le_refl _)
  obtain ⟨wraps, hrender⟩ := renderFrom_parts hps [] []
  rw [List.nil_append, List.length_nil] at hrender
  rw [render, hsegments, Cursor.start, hrender]
  simp [extras, textOf]

end Crosscheck.Message
