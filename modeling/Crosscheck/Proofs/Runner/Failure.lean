import Crosscheck.Proofs.Artifact.Failing
import Crosscheck.Proofs.Runner.Leftover

namespace Crosscheck

namespace FileSystem

variable {fs fs' : FileSystem} {out : String}

/-- A place is not at the end of a path nor below it, and is not looked at on the way there. -/
def Aside (fs : FileSystem) (out : String) (x : Location) : Prop :=
  x ∉ fs.visits true out ∧ ∀ d, fs.spot true out = .ok (.node d) → ¬ d <+: x

/-- No file that is logged to stands at the end of a path or below it. -/
def Unlogged (logger : Log.Logger) (fs : FileSystem) (out : String) : Prop :=
  ∀ id below mode bytes, logger.file = some id → fs.tree out below ≠ some (.file id mode bytes)

theorem Aside.tree {x : Location} (h : fs.Aside out x) (ht : fs'.terms = fs.terms)
    (hg : ∀ l, l ≠ x → fs'.get? l = fs.get? l) : fs'.tree out = fs.tree out := by
  refine tree_congr ht (fun l hl => .of_eq (hg l ?_)) fun d below hs => hg _ ?_
  · rintro rfl
    exact h.1 hl
  · rintro rfl
    exact h.2 d hs (List.prefix_append d below)

theorem Unlogged.of_tree {logger : Log.Logger} (h : Unlogged logger fs out)
    (ht : fs'.tree out = fs.tree out) : Unlogged logger fs' out := by
  rw [Unlogged, ht]
  exact h

end FileSystem

open FileSystem

namespace Logged

variable {logger : Log.Logger} {fs fs' : FileSystem} (h : Logged logger fs fs')

include h

theorem tree {out : String} (hout : Unlogged logger fs out) : fs'.tree out = fs.tree out := by
  refine tree_congr h.terms (fun x _ => h.agree x) fun d below hs => h.get?_eq ?_
  intro id mode bytes hg hid
  refine hout id below mode bytes hid ?_
  rw [FileSystem.tree, hs]
  exact hg

theorem sound (hs : fs.Sound) : fs'.Sound := by
  constructor
  · intro l n hn
    obtain ⟨m, hm, _⟩ := (h.retains.2.agree l n hn).some hn
    exact hs.named l m hm
  · intro l s n hn
    obtain ⟨m, hm, _⟩ := (h.retains.2.agree _ n hn).some hn
    obtain ⟨mode, hmode⟩ := hs.parent l s m hm
    obtain ⟨k, hk, hout⟩ := (h.agree l).some hmode
    have hdir := Node.isDir_of_outline hout
    cases k with
    | dir mode => exact ⟨mode, hk⟩
    | file | link | fifo => cases hdir

end Logged

namespace Runner

theorem removeStale_tree {fs fs' : FileSystem} {p out : String}
    (hleft : ∀ x, fs.lead false p = some x → (fs.get? x).isSome = true → fs.Aside out x)
    (h : removeStale fs p = .ok fs') : fs'.tree out = fs.tree out := by
  rw [removeStale] at h
  split at h
  · rename_i hr
    cases h
    obtain ⟨d, s, _, n, he, hn, _, _, rfl⟩ := remove_eq_ok hr
    refine (hleft (d ++ [s]) (entry_lead he) (by rw [hn]; rfl)).tree rfl fun l hl => ?_
    rw [get?_erase, if_neg hl]
  · split at h
    · cases h
      rfl
    · cases h

variable {r : Runner} {launch : Program.Launch} {cancelled : Bool} {tool : Tool} {input : String}
  {w : World}

def writes : Program.Launch := fun fs _ =>
  { fs := fs.set ["c", "p.hex"] (.file 9 0o644 "00".toUTF8), ending := .clean }

def occupied : FileSystem where
  nodes :=
    [(["o"], .dir 0o755), (["o", "a"], .dir 0o755), (["o", "a", "p.hex"], .dir 0o755),
      (["o", "a", "q.hex"], .file 2 0o644 "01".toUTF8)] ++ workshop.nodes
  nextId := 3
  cwd := []
  mounts := []
  privileged := false

end Runner

end Crosscheck
