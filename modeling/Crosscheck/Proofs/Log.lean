import Crosscheck.Log.Logger
import Crosscheck.Proofs.Duration

namespace Crosscheck

namespace Text

theorem newline_toDigits {b : Nat} (hb : 1 < b) (n : Nat) : '\n' ∉ Nat.toDigits b n := by
  induction n using Nat.strongRecOn with
  | ind n ih =>
    rw [Nat.toDigits_eq_if hb]
    split
    · simp
    · have hrest := ih (n / b) (Nat.div_lt_self (by omega) hb)
      simpa using hrest

theorem newline_padded {b : Nat} (hb : 1 < b) (width n : Nat) : '\n' ∉ padded b width n := by
  simp [padded, List.leftpad, List.mem_replicate, newline_toDigits hb]

theorem newline_int (i : Int) : '\n' ∉ int i := by
  rw [int]
  split <;> simp [newline_toDigits]

theorem shortEscape?_ne_newline {c e : Char} (h : shortEscape? c = some e) : e ≠ '\n' := by
  rw [shortEscape?] at h
  split at h <;> cases h <;> decide

theorem newline_escaped (p : Piece) : '\n' ∉ p.escaped '"' false := by
  have hhex (width n : Nat) : '\n' ∉ hex width n := newline_padded (by decide) width n
  cases p with
  | stray b => simp [Piece.escaped, hhex]
  | char c =>
    have hne : isPrintable c = true → c ≠ '\n' := by
      rintro hprint rfl
      revert hprint
      decide +kernel
    rw [Piece.escaped, escaped]
    split
    · rename_i hq
      have hc : c ≠ '\n' := by rintro rfl; simp at hq
      simpa using hc.symm
    split
    · rename_i hprint
      simpa using (hne hprint.1).symm
    split
    · rename_i e he
      simpa using (shortEscape?_ne_newline he).symm
    · rw [numericEscape]
      split
      · simp [hhex]
      · split <;> simp [hhex]

end Text

theorem Duration.newline_render (d : Duration) : '\n' ∉ d.render.toList := by
  have hdigits (n : Nat) : '\n' ∉ Nat.toDigits 10 n := Text.newline_toDigits (by decide) n
  have hmixed (n places : Nat) : '\n' ∉ mixed n places := by
    have hfraction : '\n' ∉ dropZeros (Text.padded 10 places (n % Nat.pow 10 places)) := by
      rw [dropZeros, List.mem_reverse]
      intro hmem
      have hpadded := List.mem_reverse.mp ((List.dropWhile_sublist _).subset hmem)
      exact Text.newline_padded (by decide) _ _ hpadded
    rw [mixed]
    split
    · exact hdigits _
    · rw [List.mem_append, List.mem_cons]
      simpa [hdigits] using hfraction
  have hmagnitude (n : Nat) : '\n' ∉ magnitudeText n := by
    rw [magnitudeText]
    dsimp only
    repeat' split
    all_goals simp [hdigits, hmixed]
  rw [render, String.toList_ofList, chars]
  split <;> simp [hmagnitude]

namespace Log

theorem newline_bareOrQuoted (ps : List Text.Piece) : '\n' ∉ (bareOrQuoted ps).toList := by
  rw [bareOrQuoted]
  split
  · rename_i hbare
    rw [String.toList_ofList, List.mem_map]
    rintro ⟨p, hp, hchar⟩
    have hall := List.all_eq_true.mp (Bool.and_eq_true_iff.mp hbare).2 p hp
    cases p with
    | stray b => cases hall
    | char c =>
      obtain rfl : c = '\n' := hchar
      revert hall
      decide
  · simp [Text.quotedWith, Text.newline_escaped]

theorem newline_bareText (s : String) : '\n' ∉ (bareText s).toList := newline_bareOrQuoted _

theorem Value.newline_bare (v : Value) : '\n' ∉ v.bare.toList := by
  cases v with
  | text s => exact newline_bareText s
  | raw bytes => exact newline_bareOrQuoted _
  | number i => simpa [bare, decimal] using Text.newline_int _
  | flag b => cases b <;> decide
  | nothing => decide
  | duration d => exact d.newline_render
  | names list => exact newline_bareText _
  | error message => exact newline_bareText message

theorem Level.newline_name (l : Level) : '\n' ∉ l.name.toList := by
  have hnamed (name : String) (offset : Int) (h : '\n' ∉ name.toList) :
      '\n' ∉ (named name offset).toList := by
    rw [named]
    split
    · exact h
    · split <;> simp [h, Text.newline_int]
  rw [name]
  repeat' split
  all_goals exact hnamed _ _ (by decide)

/-- A line of the log, and only one. -/
structure IsLine (line : String) : Prop where
  start : "level=".toList <+: line.toList
  single : '\n' ∉ line.toList

theorem newline_intercalate {sep : String} (hsep : '\n' ∉ sep.toList) {words : List String}
    (h : ∀ w ∈ words, '\n' ∉ w.toList) : '\n' ∉ (sep.intercalate words).toList := by
  induction words with
  | nil => simp
  | cons w rest ih =>
    have hrest := ih fun v hv => h v (by simp [hv])
    cases rest with
    | nil => simpa using h w (by simp)
    | cons v rest =>
      rw [String.intercalate_cons_cons, String.toList_append, String.toList_append]
      simp only [List.mem_append, not_or]
      exact ⟨⟨h w (by simp), hsep⟩, hrest⟩

theorem newline_pairText {key value : String} (hkey : '\n' ∉ key.toList)
    (hvalue : '\n' ∉ value.toList) : '\n' ∉ (pairText key value).toList := by
  simp [pairText, hkey, hvalue]

theorem Record.newline_textLine {r : Record} (h : ∀ t ∈ r.time, '\n' ∉ t.toList) :
    '\n' ∉ r.textLine.toList := by
  apply newline_intercalate (by decide)
  intro w hw
  simp only [List.mem_append, List.mem_cons, List.mem_map, List.not_mem_nil, or_false] at hw
  obtain (hw | rfl | rfl) | ⟨a, _, rfl⟩ := hw
  · cases ht : r.time with
    | none => simp [ht] at hw
    | some t =>
      obtain rfl : w = pairText "time" t := by simpa [ht] using hw
      exact newline_pairText (by decide) (h t ht)
  · exact newline_pairText (by decide) r.level.newline_name
  · exact newline_pairText (by decide) (newline_bareText _)
  · exact newline_pairText (newline_bareText _) a.value.newline_bare

theorem Record.isLine_textLine {r : Record} (h : r.time = none) : IsLine r.textLine := by
  have hline : r.textLine = " ".intercalate
      (("level=" ++ r.level.name) :: pairText "msg" (bareText r.message) ::
        (r.attrs.filter Attr.isShown).map fun a => pairText (bareText a.key) a.value.bare) := by
    rw [textLine, h]
    rfl
  constructor
  · rw [hline, String.intercalate_cons_cons]
    simp
  · exact newline_textLine (by simp [h])

/-- What the console shows, while all that is shown of the log are lines of it. -/
structure Shows (console : String) (w : World) : Prop where
  console : w.console = console
  lines : ∀ line ∈ w.log, IsLine line

theorem Logger.log_shows (l : Logger) {console : String} {w : World} (h : Shows console w)
    {r : Record} (hr : r.time = none) : Shows console (l.log w r) := by
  have hshown : Shows console
      (if l.showsAt r.level && l.shows then w.noteLine (l.record r).textLine else w) := by
    split
    · refine ⟨h.console, fun line hline => ?_⟩
      cases List.mem_append.mp hline with
      | inl hold => exact h.lines line hold
      | inr hnew =>
        rw [List.mem_singleton.mp hnew]
        exact Record.isLine_textLine hr
    · exact h
  rw [log]
  split
  · split
    · exact ⟨hshown.console, hshown.lines⟩
    · exact hshown
  · exact hshown

end Log

end Crosscheck
