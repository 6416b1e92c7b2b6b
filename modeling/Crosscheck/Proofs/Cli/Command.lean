import Crosscheck.Cli.Run

namespace Crosscheck.Cli

theorem commandWord?_word {word : String} (hw : takesNext word = false) (hne : word ≠ "")
    (hh : word.toList.head? ≠ some '-') (rest : List String) :
    commandWord? (word :: rest) = some word := by
  have hdash : word ≠ "--" := by
    rintro rfl
    exact hh (by decide)
  unfold commandWord?
  simp [hdash, hw, hne, hh]

theorem withoutWord_self {word : String} (hw : takesNext word = false) (hh : word ≠ "--")
    (rest : List String) : withoutWord word (word :: rest) = rest := by
  unfold withoutWord
  simp [hw, hh]

theorem findFrom_leaf {c : Command} (hc : ∀ word, c.child? word = none) (fuel : Nat)
    (args : List String) : findFrom fuel c args = (c, args) := by
  cases fuel with
  | zero => rfl
  | succ fuel =>
    rw [findFrom]
    cases commandWord? args with
    | none => rfl
    | some word => simp [hc word]

theorem find_compare (rest : List String) :
    find ("tools" :: "compare" :: rest) = (.compare, rest) := by
  have hleaf : ∀ word, Command.compare.child? word = none := fun word => rfl
  rw [find, List.length_cons, List.length_cons, findFrom,
    commandWord?_word (by decide) (by decide) (by decide)]
  simp only [Command.child?]
  rw [withoutWord_self (by decide) (by decide), findFrom,
    commandWord?_word (by decide) (by decide) (by decide)]
  simp only [Command.child?]
  rw [withoutWord_self (by decide) (by decide), findFrom_leaf hleaf]

theorem readFlags_words (c : Command) (flags : Flags) {words : List String}
    (h : ∀ word ∈ words, isFlag word = false) (others : List String) :
    readFlags c flags others words = .ok (flags, others.reverse ++ words) := by
  induction words generalizing others with
  | nil => simp [readFlags]
  | cons word rest ih =>
    have hw : isFlag word = false := h word List.mem_cons_self
    have hrest : ∀ w ∈ rest, isFlag w = false := fun w hm => h w (List.mem_cons_of_mem _ hm)
    rw [readFlags, hw]
    simpa using ih hrest (word :: others)

theorem readFlags_hyphens (c : Command) (flags : Flags) (others words : List String) :
    readFlags c flags others ("--" :: words) = .ok (flags, others.reverse ++ words) := by
  rw [readFlags]
  simp [show isFlag "--" = true by decide]

theorem settingsOf_unnamed (call : Call) (flags : Flags) (h : flags.config = "") (fs : FileSystem) :
    ∃ s note, settingsOf call flags fs = .ok (s, note) := by
  have hread : ∃ fields note, readConfig call flags fs = .ok (fields, note) := by
    rw [readConfig, if_neg (by simp [h])]
    split
    · exact ⟨_, _, rfl⟩
    · split
      · exact ⟨_, _, rfl⟩
      · exact ⟨_, _, rfl⟩
  obtain ⟨fields, note, hr⟩ := hread
  rw [settingsOf, hr]
  exact ⟨_, _, rfl⟩

/-- A call asks a command that does something of its own to work on the words that are left when
its flags are read. -/
structure Asks (call : Call) (command : Command) (flags : Flags) (words : List String) : Prop where
  reads : ∃ rest, find call.args = (command, rest) ∧
    readFlags command {} [] rest = .ok (flags, words)
  help : flags.help = false
  group : command.isGroup = false

theorem Asks.run (launch : Program.Launch) {call : Call} {command : Command} {flags : Flags}
    {words : List String} (h : Asks call command flags words) {fs : FileSystem}
    {s : Settings.Store} {note : String} (hs : settingsOf call flags fs = .ok (s, note)) :
    run launch call fs = (perform launch call flags s fs command words).noted note := by
  obtain ⟨⟨rest, hfind, hflags⟩, hhelp, hgroup⟩ := h
  rw [Cli.run, hfind]
  simp [hflags, hhelp, hgroup, hs]

end Crosscheck.Cli
