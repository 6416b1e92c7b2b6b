import Mathlib.Data.List.Forall2
import Crosscheck.Proofs.Json
import Crosscheck.Proofs.Log

namespace Crosscheck.Log

theorem jsonEscaped_char (letters : Bool) (c : Char) :
    jsonEscaped letters (.char c) =
      if c = '"' ∨ c = '\\' then ['\\', c]
      else if c = '\n' then ['\\', 'n']
      else if c = '\r' then ['\\', 'r']
      else if c = '\t' then ['\\', 't']
      else if letters ∧ c = '\x08' then ['\\', 'b']
      else if letters ∧ c = '\x0c' then ['\\', 'f']
      else if c.toNat < 0x20 ∨ c.toNat = 0x2028 ∨ c.toNat = 0x2029 then
        '\\' :: 'u' :: Text.hex 4 c.toNat
      else [c] := rfl

theorem newline_jsonEscaped (letters : Bool) (p : Text.Piece) : '\n' ∉ jsonEscaped letters p := by
  cases p with
  | stray b =>
    change '\n' ∉ "\\ufffd".toList
    decide
  | char c =>
    rw [jsonEscaped_char]
    split
    · rename_i hc
      rintro hmem
      obtain rfl : '\n' = c := by simpa using hmem
      revert hc
      decide
    split
    · decide
    rename_i hne
    repeat' split
    · decide
    · decide
    · decide
    · decide
    · simp [Text.hex, Text.newline_padded]
    · simpa using Ne.symm hne

theorem newline_jsonPieces (letters : Bool) (ps : List Text.Piece) :
    '\n' ∉ (jsonPieces letters ps).toList := by
  simp [jsonPieces, newline_jsonEscaped]

theorem newline_jsonText (s : String) : '\n' ∉ (jsonText s).toList := newline_jsonPieces _ _

theorem Value.newline_json (v : Value) : '\n' ∉ v.json.toList := by
  cases v with
  | text s => exact newline_jsonText s
  | raw bytes => exact newline_jsonPieces _ _
  | number i => simpa [json, decimal] using Text.newline_int _
  | flag b => cases b <;> decide
  | nothing => decide
  | duration d => simpa [json, decimal] using Text.newline_int _
  | names list =>
    have hlist : '\n' ∉ (",".intercalate
        (list.map fun s => jsonPieces true (Text.piecesOf s))).toList := by
      apply newline_intercalate (by decide)
      simp [newline_jsonPieces]
    simpa [json] using hlist
  | error message => exact newline_jsonText message

theorem newline_pairJson (key : String) {value : String} (h : '\n' ∉ value.toList) :
    '\n' ∉ (pairJson key value).toList := by
  simp [pairJson, newline_jsonText, h]

theorem newline_object {pairs : List String} (h : ∀ p ∈ pairs, '\n' ∉ p.toList) :
    '\n' ∉ ("\x7b" ++ ",".intercalate pairs ++ "\x7d").toList := by
  have hpairs := @newline_intercalate "," (by decide) pairs h
  rw [String.toList_append, String.toList_append]
  simp only [List.mem_append, not_or]
  exact ⟨⟨by decide, hpairs⟩, by decide⟩

theorem hex_four {n : Nat} (h : n < 0x20 ∨ n = 0x2028 ∨ n = 0x2029) :
    ∃ a b c d, Text.hex 4 n = [a, b, c, d] ∧ [a, b, c, d].all Json.isHex = true ∧
      Text.value? 16 [a, b, c, d] = some n := by
  have hall : (List.range 0x20 ++ [0x2028, 0x2029]).all (fun n =>
      let ds := Text.hex 4 n
      ds.length = 4 ∧ ds.all Json.isHex = true ∧ Text.value? 16 ds = some n) = true := by
    decide +kernel
  have hn := List.all_eq_true.mp hall n (by simpa using h)
  obtain ⟨hlength, hhex, hvalue⟩ := of_decide_eq_true hn
  match hds : Text.hex 4 n, hlength with
  | [a, b, c, d], _ => exact ⟨a, b, c, d, rfl, hds ▸ hhex, hds ▸ hvalue⟩

theorem spells_jsonEscaped (letters : Bool) (p : Text.Piece) :
    Json.Spells (jsonEscaped letters p) [p.toChar] := by
  cases p with
  | stray b => exact Json.spells_unit (by decide) (by decide) (by decide)
  | char c =>
    rw [jsonEscaped_char, Text.Piece.toChar]
    split
    · rename_i hc
      obtain rfl | rfl := hc <;> exact Json.spells_escape rfl
    rename_i hplain
    split
    · rename_i hc
      exact hc ▸ Json.spells_escape rfl
    split
    · rename_i hc
      exact hc ▸ Json.spells_escape rfl
    split
    · rename_i hc
      exact hc ▸ Json.spells_escape rfl
    split
    · rename_i hc
      exact hc.2 ▸ Json.spells_escape rfl
    split
    · rename_i hc
      exact hc.2 ▸ Json.spells_escape rfl
    split
    · rename_i hc
      obtain ⟨a, b, c', d, hhex, hall, hvalue⟩ := hex_four hc
      rw [hhex, ← Char.ofNat_toNat c]
      exact Json.spells_unit hall hvalue (by omega)
    · rename_i hc
      exact Json.spells_plain (by tauto) (by tauto) (by omega)

def textOf (ps : List Text.Piece) : String := String.ofList (ps.map Text.Piece.toChar)

theorem textOf_piecesOf (s : String) : textOf (Text.piecesOf s) = s := by
  have hchar : Text.Piece.toChar ∘ Text.Piece.char = id := rfl
  rw [textOf, Text.piecesOf, List.map_map, hchar, List.map_id, String.ofList_toList]

theorem spells_pieces (letters : Bool) (ps : List Text.Piece) :
    Json.Spells (ps.flatMap (jsonEscaped letters)) (ps.map Text.Piece.toChar) := by
  induction ps with
  | nil => exact .nil
  | cons p rest ih => exact (spells_jsonEscaped letters p).append ih

theorem reads_jsonPieces (letters : Bool) (ps : List Text.Piece) :
    Json.Reads 0 (jsonPieces letters ps).toList (.string (textOf ps)) := by
  rw [jsonPieces, String.toList_ofList]
  exact Json.reads_string (spells_pieces letters ps)

theorem reads_piecesOf (letters : Bool) (s : String) :
    Json.Reads 0 (jsonPieces letters (Text.piecesOf s)).toList (.string s) := by
  have hread := reads_jsonPieces letters (Text.piecesOf s)
  rwa [textOf_piecesOf] at hread

theorem reads_jsonText (s : String) : Json.Reads 0 (jsonText s).toList (.string s) :=
  reads_piecesOf false s

def Value.toJson : Value → Json
  | .text s => .string s
  | .raw bytes => .string (textOf (Text.pieces bytes))
  | .number i => .number (decimal i.toInt)
  | .flag b => .bool b
  | .nothing => .null
  | .duration d => .number (decimal d.toInt)
  | .names list => .array (list.map .string)
  | .error message => .string message

theorem reads_decimal (i : Int) : Json.Reads 0 (decimal i).toList (.number (decimal i)) := by
  rw [decimal, String.toList_ofList]
  exact Json.reads_int i

theorem Value.reads_json (v : Value) : Json.Reads 1 v.json.toList v.toJson := by
  cases v with
  | text s => exact (reads_jsonText s).mono (Nat.zero_le _)
  | raw bytes => exact (reads_jsonPieces false _).mono (Nat.zero_le _)
  | number i => exact (reads_decimal _).mono (Nat.zero_le _)
  | flag b => exact (Json.reads_bool b).mono (Nat.zero_le _)
  | nothing => exact Json.reads_null.mono (Nat.zero_le _)
  | duration d => exact (reads_decimal _).mono (Nat.zero_le _)
  | names list =>
    have hnames : List.Forall₂ (Json.Reads 0)
        ((list.map fun s => jsonPieces true (Text.piecesOf s)).map String.toList)
        (list.map .string) := by
      rw [List.map_map, List.forall₂_map_left_iff, List.forall₂_map_right_iff, List.forall₂_same]
      exact fun s _ => reads_piecesOf true s
    have harray := Json.reads_array hnames
    rw [json, String.toList_append, String.toList_append, String.toList_intercalate]
    exact harray
  | error message => exact (reads_jsonText message).mono (Nat.zero_le _)

def Record.members (r : Record) : List Attr :=
  (r.time.map fun t => ⟨"time", .text t⟩).toList ++
    [⟨"level", .text r.level.name⟩, ⟨"msg", .text r.message⟩] ++ r.attrs.filter Attr.isShown

def Record.toJson (r : Record) : Json := .object (r.members.map fun a => (a.key, a.value.toJson))

theorem Record.jsonLine_eq (r : Record) : r.jsonLine =
    "\x7b" ++ ",".intercalate (r.members.map fun a => pairJson a.key a.value.json) ++ "\x7d" := by
  rw [jsonLine, members]
  cases r.time <;> simp [Value.json]

theorem Record.newline_jsonLine (r : Record) : '\n' ∉ r.jsonLine.toList := by
  rw [jsonLine_eq]
  apply newline_object
  simp only [List.forall_mem_map]
  exact fun a _ => newline_pairJson a.key a.value.newline_json

theorem Attr.readsField (a : Attr) :
    Json.ReadsField 1 (pairJson a.key a.value.json).toList (a.key, a.value.toJson) := by
  refine ⟨_, _, a.value.json.toList, ?_, spells_pieces false (Text.piecesOf a.key),
    (textOf_piecesOf a.key).symm, a.value.reads_json⟩
  simp [pairJson, jsonText, jsonPieces]

/-- A record's line is a document, and says what the record says. -/
theorem Record.read_jsonLine (r : Record) : Json.read r.jsonLine.toList = .ok r.toJson := by
  have hfields : List.Forall₂ (Json.ReadsField 1)
      ((r.members.map fun a => pairJson a.key a.value.json).map String.toList)
      (r.members.map fun a => (a.key, a.value.toJson)) := by
    rw [List.map_map, List.forall₂_map_left_iff, List.forall₂_map_right_iff, List.forall₂_same]
    exact fun a _ => a.readsField
  have hread := Json.reads_object hfields (by simp [members])
  rw [jsonLine_eq, String.toList_append, String.toList_append, String.toList_intercalate]
  exact Json.read_of_reads hread (by decide)

end Crosscheck.Log
