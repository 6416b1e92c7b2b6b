import Crosscheck.Proofs.Corpus
import Crosscheck.Proofs.Fault
import Crosscheck.Proofs.FileSystem.Paving
import Crosscheck.Proofs.Text.ByteOrder

namespace Crosscheck

/-- The extension of a name is what stands from its last dot on; without a dot it is empty. -/
inductive Path.HasExt : String → String → Prop
  | none {name : String} (h : '.' ∉ name.toList) : HasExt name ""
  | dot (front : String) {rest : String} (h : '.' ∉ rest.toList) :
    HasExt (front ++ "." ++ rest) ("." ++ rest)

theorem Path.HasExt.extOf {name e : String} (h : HasExt name e) :
    String.ofList (extOf name.toList) = e := by
  cases h with
  | none h => simp [Path.extOf, h]
  | @dot front rest h =>
    have hrest : ∀ c ∈ rest.toList.reverse, (c != '.') = true := by
      intro c hc
      rw [bne_iff_ne]
      rintro rfl
      exact h (List.mem_reverse.mp hc)
    have hreverse : (front ++ "." ++ rest).toList.reverse =
        rest.toList.reverse ++ '.' :: front.toList.reverse := by simp
    rw [Path.extOf, if_pos (by simp), hreverse, List.takeWhile_append_of_pos hrest]
    apply String.ext
    simp

theorem Path.hasExt_extOf (name : String) :
    HasExt name (String.ofList (Path.extOf name.toList)) := by
  by_cases h : '.' ∈ name.toList
  · obtain ⟨rest, front, hreverse, hrest⟩ :=
      List.eq_append_cons_of_mem (List.mem_reverse.mpr h)
    have hname : name = String.ofList front.reverse ++ "." ++ String.ofList rest.reverse := by
      apply String.ext
      simpa using List.reverse_eq_iff.mp hreverse
    have hext : HasExt name ("." ++ String.ofList rest.reverse) := by
      rw [hname]
      exact .dot _ (by simpa using hrest)
    rwa [hext.extOf]
  · have hext : HasExt name "" := .none h
    rwa [hext.extOf]

theorem Path.ext_eq_iff {name e : String} (hn : '/' ∉ name.toList) :
    Path.ext name = e ↔ HasExt name e := by
  rw [Path.ext_of_no_slash hn]
  exact ⟨fun h => h ▸ hasExt_extOf name, HasExt.extOf⟩

namespace FileSystem

variable {fs : FileSystem}

theorem Distinct.get?_eq_some_iff (hd : fs.Distinct) {x : Location} {n : Node} :
    fs.get? x = some n ↔ (x, n) ∈ fs.nodes := by
  refine ⟨mem_nodes_of_get?, fun hmem => ?_⟩
  have hsome : (fs.get? x).isSome = true := by
    rw [get?_isSome_iff]
    exact List.mem_map.mpr ⟨_, hmem, rfl⟩
  obtain ⟨m, hm⟩ := Option.isSome_iff_exists.mp hsome
  have heq : (x, m) = (x, n) := List.inj_on_of_nodup_map hd (mem_nodes_of_get? hm) hmem rfl
  rw [hm, (Prod.mk.inj heq).2]

theorem children_reordered {ns : List (Location × Node)} (hns : ns.Perm fs.nodes) (loc : Location) :
    ({ fs with nodes := ns } : FileSystem).children loc = fs.children loc := by
  have hperm : (FileSystem.children { fs with nodes := ns } loc).Perm (fs.children loc) :=
    ((List.mergeSort_perm _ _).trans (hns.filterMap _)).trans (List.mergeSort_perm _ _).symm
  exact List.Perm.eq_of_pairwise (fun a b _ _ => le_antisymm) (children_pairwise _ loc)
    (children_pairwise fs loc) hperm

section Reordered

variable {ns : List (Location × Node)} (hd : fs.Distinct) (hns : ns.Perm fs.nodes)

include hd hns

theorem Distinct.reordered : ({ fs with nodes := ns } : FileSystem).Distinct :=
  (List.Perm.nodup_iff (hns.map Prod.fst)).mpr hd

theorem get?_reordered (x : Location) :
    ({ fs with nodes := ns } : FileSystem).get? x = fs.get? x := by
  apply Option.ext
  intro n
  rw [(hd.reordered hns).get?_eq_some_iff, hd.get?_eq_some_iff]
  exact hns.mem_iff

theorem spot_reordered (through : Bool) (p : String) :
    ({ fs with nodes := ns } : FileSystem).spot through p = fs.spot through p :=
  spot_congr rfl fun x _ => .of_eq (get?_reordered hd hns x)

theorem stat_reordered (p : String) :
    ({ fs with nodes := ns } : FileSystem).stat p = fs.stat p := by
  simp only [stat, spot_reordered hd hns, get?_reordered hd hns]

theorem isRegularFile_reordered (p : String) :
    ({ fs with nodes := ns } : FileSystem).isRegularFile p = fs.isRegularFile p := by
  rw [isRegularFile, isRegularFile, stat_reordered hd hns]

theorem readDir_reordered (p : String) :
    ({ fs with nodes := ns } : FileSystem).readDir p = fs.readDir p := by
  simp only [readDir, openRead, spot_reordered hd hns, get?_reordered hd hns,
    children_reordered hns]
  rfl

end Reordered

def RegularIn (fs : FileSystem) (loc : Location) (name : String) : Prop :=
  ∃ found n, walkWith fs (followLink fs linkBudget) true loc [name] = .ok (.node found) ∧
    fs.get? found = some n ∧ n.isRegular = true

theorem isRegularFile_iff {p : String} :
    fs.isRegularFile p = true ↔
      ∃ found n, fs.spot true p = .ok (.node found) ∧ fs.get? found = some n ∧
        n.isRegular = true := by
  rw [isRegularFile]
  constructor
  · intro h
    split at h
    · rename_i n hn
      obtain ⟨found, hs, hg⟩ := stat_eq_ok hn
      exact ⟨found, n, hs, hg, h⟩
    · cases h
  · rintro ⟨found, n, hs, hg, hn⟩
    simp only [stat, hs, hg, hn]

theorem walkAlong_of_spot_clean {dir : String} {loc : Location}
    (h : fs.spot true (Path.clean dir) = .ok (.node loc)) :
    fs.walkAlong (Path.isAbs dir) (Path.names dir) = .ok (.node loc) := by
  have hw := walkWith_of_spot h
  rw [Path.clean_eq] at hw
  cases hnames : (Path.names dir).reverse with
  | nil =>
    rw [List.reverse_eq_nil_iff] at hnames
    rw [hnames] at hw ⊢
    cases hrooted : Path.isAbs dir with
    | true =>
      rw [hrooted] at hw
      exact hw
    | false =>
      have hsteps : stepsThrough "." = ["."] := by decide
      have hstart : fs.start "." = fs.cwd := rfl
      rw [hrooted, Path.ofComponents, if_neg Bool.false_ne_true, if_pos List.isEmpty_nil, hsteps,
        hstart, walkWith] at hw
      split at hw
      · cases hw
      · exact hw
  | cons n front =>
    have hsplit : Path.names dir = front.reverse ++ [n] := by
      rw [← List.reverse_reverse (Path.names dir), hnames, List.reverse_cons]
    have hparts : ∀ c ∈ front.reverse ++ [n], c ≠ "" ∧ '/' ∉ c.toList := fun c hc =>
      have hmem := Path.mem_names (hsplit ▸ hc)
      ⟨hmem.1, hmem.2.2⟩
    rw [hsplit, (stepsThrough_ofComponents hparts).2.1, start_ofComponents hparts] at hw
    rw [hsplit]
    exact hw

theorem isRegularFile_join_iff {dir name : String} {loc : Location} (hn : Path.IsName name)
    (h : fs.spot true (Path.clean dir) = .ok (.node loc)) :
    fs.isRegularFile (Path.join [dir, name]) = true ↔
      fs.RegularIn loc name ∧ pathFault? (Path.join [dir, name]) = none := by
  have hparts : ∀ c ∈ Path.names dir ++ [name], c ≠ "" ∧ '/' ∉ c.toList :=
    fun c hc => Path.mem_names_append hn hc
  have hwalk : walkWith fs (followLink fs linkBudget) true (fs.start (Path.join [dir, name]))
      (stepsThrough (Path.join [dir, name])) =
        walkWith fs (followLink fs linkBudget) true loc [name] := by
    rw [Path.join_name dir hn, walkWith_ofComponents hparts, walkAlong_of_spot_clean h]
    rfl
  rw [isRegularFile_iff, RegularIn]
  constructor
  · rintro ⟨found, n, hs, hg, hr⟩
    exact ⟨⟨found, n, hwalk ▸ walkWith_of_spot hs, hg, hr⟩, pathFault?_of_spot hs⟩
  · rintro ⟨⟨found, n, hw, hg, hr⟩, hfault⟩
    refine ⟨found, n, ?_, hg, hr⟩
    rw [spot_of_pathFault? hfault, hwalk, hw]
    simp [hg]

end FileSystem

namespace Corpus

open FileSystem

variable {fs : FileSystem} {dir ext name : String} {loc : Location} {cases : List TestCase}

/-- A name in a directory that belongs to a corpus: it has the extension, and what has the name is
a regular file or leads to one. -/
def Qualifies (fs : FileSystem) (loc : Location) (ext name : String) : Prop :=
  (fs.get? (loc ++ [name])).isSome = true ∧ Path.HasExt name ext ∧ fs.RegularIn loc name

/-- A name in a directory that is taken into a corpus: it has the extension, and the path that is
joined from the directory's and the name leads to a regular file. -/
def Taken (fs : FileSystem) (dir : String) (loc : Location) (ext name : String) : Prop :=
  (fs.get? (loc ++ [name])).isSome = true ∧ Path.HasExt name ext ∧
    fs.isRegularFile (Path.join [dir, name]) = true

/-- The cases of the names that are asked for, one for each, in the order of the names' bytes. -/
structure Lists (dir ext : String) (Asked : String → Prop) (cases : List TestCase) : Prop where
  sound : ∀ test ∈ cases, Asked test.name
  complete : ∀ name, Asked name → ∃! test, test ∈ cases ∧ test.name = name
  sorted : cases.Pairwise fun a b => Text.bytesOf a.name < Text.bytesOf b.name
  name : ∀ test ∈ cases, test.name = test.base ++ ext
  path : ∀ test ∈ cases, test.path = Path.join [dir, test.name]
  bases : (cases.map (·.base)).Nodup

theorem Opens.loc_eq {loc' : Location} (h : Opens fs dir loc)
    (h' : fs.spot true dir = .ok (.node loc')) : loc' = loc := by
  rw [h.1] at h'
  cases h'
  rfl

theorem discover_of_not_opens (h : ∀ loc, ¬ Opens fs dir loc) :
    ∃ f, discover fs dir ext = .error f ∧ f.cause = .corpusNotFound := by
  rw [discover]
  split
  · exact ⟨_, rfl, rfl⟩
  split
  · exact ⟨_, rfl, rfl⟩
  split
  · exact ⟨_, rfl, rfl⟩
  rename_i names hr
  rw [readDir] at hr
  split at hr
  · cases hr
  · rename_i loc mode ho
    obtain ⟨hs, hg, hc⟩ := openRead_eq_ok ho
    exact absurd ⟨hs, mode, hg, hc⟩ (h loc)
  · cases hr

theorem mem_chosen_iff (hn : fs.Named) :
    name ∈ chosen fs dir ext loc ↔ Taken fs dir loc ext name := by
  rw [chosen, List.mem_filter, mem_children, Bool.and_eq_true, beq_iff_eq, Taken]
  exact and_congr_right fun hsome =>
    and_congr_left' (Path.ext_eq_iff (isName_of_isSome hn hsome).no_slash)

theorem chosen_isEmpty_iff (hn : fs.Named) :
    (chosen fs dir ext loc).isEmpty = true ↔ ∀ name, ¬ Taken fs dir loc ext name := by
  rw [List.isEmpty_iff, List.eq_nil_iff_forall_not_mem]
  exact forall_congr' fun name => not_congr (mem_chosen_iff hn)

theorem lists_of_discover (hd : fs.Distinct) (hn : fs.Named) (ho : Opens fs dir loc)
    (h : discover fs dir ext = .ok cases) : Lists dir ext (Taken fs dir loc ext) cases := by
  have hnames := discover_nodup hd h
  have hcase : ∀ test ∈ cases,
      test = caseOf dir ext test.name ∧ Taken fs dir loc ext test.name := by
    intro test htest
    obtain ⟨loc', name, hs, rfl, hsome, hext, hregular⟩ := mem_discover h htest
    rw [ho.loc_eq hs] at hsome
    have hslash := (isName_of_isSome hn hsome).no_slash
    exact ⟨rfl, hsome, (Path.ext_eq_iff hslash).mp hext, hregular⟩
  refine
    { sound := fun test htest => (hcase test htest).2
      complete := fun name hname => ⟨caseOf dir ext name, ⟨?_, rfl⟩, fun test htest => ?_⟩
      sorted := ?_
      name := fun test htest => ?_
      path := fun test htest => ?_
      bases := discover_nodup_base hd hn h }
  · obtain ⟨loc', mode, hs, -, -, rfl⟩ := discover_eq_ok h
    rw [ho.loc_eq hs]
    exact List.mem_map_of_mem ((mem_chosen_iff hn).mpr hname)
  · rw [(hcase test htest.1).1, htest.2]
  · have hlt := (discover_sorted h).and (List.pairwise_map.mp hnames)
    exact hlt.imp fun hab => Text.bytesOf_lt (lt_of_le_of_ne hab.1 hab.2)
  · exact (base_append_of_mem_discover hn h htest).symm
  · rw [(hcase test htest).1]
    rfl

/-- What is taken is what qualifies, unless the directory's path leads elsewhere when the dots in
it are taken out without a look at the links that it goes through, or is too long with the name. -/
theorem taken_iff_qualifies (hn : fs.Named) (ho : Opens fs dir loc)
    (hclean : fs.spot true (Path.clean dir) = fs.spot true dir) :
    Taken fs dir loc ext name ↔
      Qualifies fs loc ext name ∧ pathFault? (Path.join [dir, name]) = none := by
  rw [Qualifies, and_assoc, and_assoc]
  exact and_congr_right fun hsome => and_congr_right fun _ =>
    isRegularFile_join_iff (isName_of_isSome hn hsome) (hclean.trans ho.1)

theorem discover_reordered (hd : fs.Distinct) {ns : List (Location × Node)}
    (hns : ns.Perm fs.nodes) :
    discover { fs with nodes := ns } dir ext = discover fs dir ext := by
  simp only [discover, stat_reordered hd hns, readDir_reordered hd hns,
    isRegularFile_reordered hd hns]

def FailsWith (fs : FileSystem) (dir ext : String) (c : Cause) : Prop :=
  ∃ f, discover fs dir ext = .error f ∧ f.fault.message = f.message ∧
    Crosscheck.Fault.causes (some f.fault) = [c]

theorem failsWith_iff {c : Cause} :
    FailsWith fs dir ext c ↔ ∃ f, discover fs dir ext = .error f ∧ f.cause = c := by
  simp only [FailsWith, Fault.message_fault, Fault.causes_fault, true_and, List.cons.injEq,
    and_true]

theorem failsWith_corpusNotFound_iff :
    FailsWith fs dir ext .corpusNotFound ↔ ∀ loc, ¬ Opens fs dir loc := by
  rw [failsWith_iff]
  refine ⟨?_, discover_of_not_opens⟩
  rintro ⟨f, hf, hcause⟩ loc ho
  rw [discover_of_opens ho] at hf
  split at hf
  · cases hf
    cases hcause
  · cases hf

theorem failsWith_corpusEmpty_iff (hn : fs.Named) :
    FailsWith fs dir ext .corpusEmpty ↔
      ∃ loc, Opens fs dir loc ∧ ∀ name, ¬ Taken fs dir loc ext name := by
  rw [failsWith_iff]
  constructor
  · rintro ⟨f, hf, hcause⟩
    by_cases hopen : ∃ loc, Opens fs dir loc
    · obtain ⟨loc, ho⟩ := hopen
      refine ⟨loc, ho, (chosen_isEmpty_iff hn).mp ?_⟩
      by_contra hne
      rw [discover_of_opens ho, if_neg hne] at hf
      cases hf
    · obtain ⟨f', hf', hcause'⟩ := @discover_of_not_opens fs dir ext (not_exists.mp hopen)
      rw [hf] at hf'
      cases hf'
      rw [hcause] at hcause'
      cases hcause'
  · rintro ⟨loc, ho, hnone⟩
    refine ⟨.empty ext dir, ?_, rfl⟩
    rw [discover_of_opens ho, if_pos ((chosen_isEmpty_iff hn).mpr hnone)]

/-- A corpus is not found exactly if its directory cannot be listed, and empty exactly if nothing in
it is taken. Otherwise there is one case for each name that is taken, in the order of the names and
whatever order they are found in. What is taken is what qualifies if the path to the directory, made
clean, still leads there and the system takes it with the name. -/
theorem discover_exact (hd : fs.Distinct) (hn : fs.Named) (dir ext : String) :
    (FailsWith fs dir ext .corpusNotFound ↔ ∀ loc, ¬ Opens fs dir loc) ∧
    (FailsWith fs dir ext .corpusEmpty ↔
      ∃ loc, Opens fs dir loc ∧ ∀ name, ¬ Taken fs dir loc ext name) ∧
    (∀ loc name, Opens fs dir loc → Taken fs dir loc ext name →
      ∃ cases, discover fs dir ext = .ok cases ∧ Lists dir ext (Taken fs dir loc ext) cases) ∧
    (∀ loc, Opens fs dir loc → fs.spot true (Path.clean dir) = fs.spot true dir →
      ∀ name, Taken fs dir loc ext name ↔
        Qualifies fs loc ext name ∧ pathFault? (Path.join [dir, name]) = none) ∧
    (∀ ns : List (Location × Node), ns.Perm fs.nodes →
      discover { fs with nodes := ns } dir ext = discover fs dir ext) := by
  refine ⟨failsWith_corpusNotFound_iff, failsWith_corpusEmpty_iff hn, fun loc name ho htaken => ?_,
    fun loc ho hclean name => taken_iff_qualifies hn ho hclean,
    fun ns hns => discover_reordered hd hns⟩
  have hne : (chosen fs dir ext loc).isEmpty ≠ true :=
    fun hempty => (chosen_isEmpty_iff hn).mp hempty name htaken
  have hok := @discover_of_opens fs dir ext loc ho
  rw [if_neg hne] at hok
  exact ⟨_, hok, lists_of_discover hd hn ho hok⟩

/-- A directory with a source and a link to it, and a link to a directory in it. -/
def linkedFiles : FileSystem where
  nodes :=
    [([], .dir 0o755), (["d"], .dir 0o755), (["d", "e"], .dir 0o755),
      (["d", "a.asm"], .file 0 0o644 "nop".toUTF8), (["d", "b.asm"], .link "a.asm"),
      (["k"], .link "/d/e")]
  nextId := 1
  cwd := []
  mounts := []
  privileged := true

theorem linkedFiles_named : linkedFiles.Named := .of_nodes (by decide)

theorem opens_linkedFiles {path : String} (h : linkedFiles.spot true path = .ok (.node ["d"])) :
    Opens linkedFiles path ["d"] := ⟨h, 0o755, rfl, rfl⟩

theorem qualifies_linkedFiles {stem : String} (hstem : stem = "a" ∨ stem = "b") :
    Qualifies linkedFiles ["d"] ".asm" (stem ++ ".asm") := by
  have hrest : '.' ∉ "asm".toList := by decide
  have hext : Path.HasExt (stem ++ ".asm") ".asm" := by
    have hdot := Path.HasExt.dot stem hrest
    rwa [String.append_assoc] at hdot
  refine ⟨?_, hext, ["d", "a.asm"], .file 0 0o644 "nop".toUTF8, ?_, rfl, rfl⟩
  · obtain rfl | rfl := hstem <;> rfl
  · obtain rfl | rfl := hstem <;> rfl

theorem discover_exact_linked :
    linkedFiles.Distinct ∧ linkedFiles.Named ∧ Opens linkedFiles "/d/e/.." ["d"] ∧
    Taken linkedFiles "/d/e/.." ["d"] ".asm" "a.asm" ∧
    Taken linkedFiles "/d/e/.." ["d"] ".asm" "b.asm" ∧
    ∃ cases, discover linkedFiles "/d/e/.." ".asm" = .ok cases ∧
      Lists "/d/e/.." ".asm" (Taken linkedFiles "/d/e/.." ["d"] ".asm") cases := by
  have hdistinct : linkedFiles.Distinct := by
    rw [Distinct]
    decide
  have hopens : Opens linkedFiles "/d/e/.." ["d"] := opens_linkedFiles rfl
  have hexact := discover_exact hdistinct linkedFiles_named "/d/e/.." ".asm"
  have htaken : Taken linkedFiles "/d/e/.." ["d"] ".asm" "a.asm" :=
    (hexact.2.2.2.1 _ hopens rfl "a.asm").mpr ⟨qualifies_linkedFiles (.inl rfl), by decide⟩
  have hlink : Taken linkedFiles "/d/e/.." ["d"] ".asm" "b.asm" :=
    (hexact.2.2.2.1 _ hopens rfl "b.asm").mpr ⟨qualifies_linkedFiles (.inr rfl), by decide⟩
  exact ⟨hdistinct, linkedFiles_named, hopens, htaken, hlink, hexact.2.2.1 _ _ hopens htaken⟩

/-- The path through the link leads to the directory; made clean, it is the path to where the link
stands. Nothing is found, though the directory has a source. -/
theorem discover_misses_source :
    Opens linkedFiles "k/.." ["d"] ∧ Qualifies linkedFiles ["d"] ".asm" "a.asm" ∧
    FailsWith linkedFiles "k/.." ".asm" .corpusEmpty := by
  have hopens : Opens linkedFiles "k/.." ["d"] := opens_linkedFiles rfl
  refine ⟨hopens, qualifies_linkedFiles (.inl rfl),
    (failsWith_corpusEmpty_iff linkedFiles_named).mpr ⟨["d"], hopens, ?_⟩⟩
  rintro name ⟨hsome, -, hregular⟩
  have hname : name = "e" ∨ name = "a.asm" ∨ name = "b.asm" := by
    simpa [linkedFiles] using (get?_isSome_iff _ _).mp hsome
  obtain rfl | rfl | rfl := hname <;> exact absurd hregular (by decide)

end Corpus

end Crosscheck
