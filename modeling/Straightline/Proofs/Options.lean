import Straightline.CommandLine.Run
import Straightline.Proofs.FileAccess

/-!
# What options say

Two facts about the options that arguments make.

* Without an option for it, the file to be written lies in the folder of the source file: its path
  differs from that of the source file in the last step only (`Options.target_steps`).
* The flag that chooses the policy changes no other option, wherever it stands among the arguments
  (`Options.ofArguments_flag`). For a proof, two readings of arguments are run side by side: `Alike`
  says of them that they end with drafts that agree, apart from the policy.
-/

namespace Straightline

/-! ## The file next to a file -/

namespace Path

/-- The segments of a path that lead somewhere. -/
def steps (path : Path) : List String :=
  path.segments.filter (!isIdle ·)

/-- Whether the path starts at the root. -/
def isRooted (path : Path) : Bool :=
  path.text.toList.head? == some '/'

theorem trimIdle_eq (segments : List String) : trimIdle segments = segments.rdropWhile isIdle := rfl

theorem prefix_trimIdle (segments : List String) : trimIdle segments <+: segments :=
  List.rdropWhile_prefix isIdle segments

/-- Segments that lead nowhere are no steps. -/
theorem filter_trimIdle (segments : List String) :
    (trimIdle segments).filter (!isIdle ·) = segments.filter (!isIdle ·) := by
  rw [trimIdle_eq]
  induction segments using List.reverseRecOn with
  | nil => rfl
  | append_singleton segments segment ih =>
    rw [List.rdropWhile_concat]
    split
    · next hidle => simp [ih, hidle]
    · rfl

theorem filter_trimFolder (segments : List String) :
    (trimFolder segments).filter (!isIdle ·) = segments.filter (!isIdle ·) := by
  cases segments with
  | nil => rfl
  | cons first others => rw [trimFolder, List.filter_cons, List.filter_cons, filter_trimIdle]

/-- A path that leads to a name has it as its last step. -/
theorem exists_trimIdle_eq {path : Path} {name : String} (h : path.fileName? = some name) :
    ∃ folder, trimIdle path.segments = folder ++ [name] ∧ isIdle name = false := by
  have hlast : (trimIdle path.segments).getLast? = some name := by
    rw [fileName?] at h
    split at h
    · cases h
    · exact h
  obtain ⟨folder, hfolder⟩ := List.getLast?_eq_some_iff.mp hlast
  refine ⟨folder, hfolder, ?_⟩
  have hidle := List.rdropWhile_last_not isIdle path.segments
  simp only [← trimIdle_eq, hfolder] at hidle
  simpa using hidle

/-- There are no slashes between slashes. -/
theorem slash_not_mem_segment {path : Path} {segment : String} (h : segment ∈ path.segments) :
    '/' ∉ segment.toList := by
  obtain ⟨cs, hcs, rfl⟩ := List.mem_map.mp h
  rw [String.toList_ofList]
  clear h
  generalize path.text.toList = text at hcs
  induction text generalizing cs with
  | nil => simp_all
  | cons c text ih =>
    rw [List.splitOn_cons_eq_if_modifyHead] at hcs
    split at hcs
    · rcases List.mem_cons.mp hcs with rfl | hcs
      · simp
      · exact ih cs hcs
    · next hslash =>
      obtain ⟨first, others, hsplit⟩ := List.exists_cons_of_ne_nil (List.splitOn_ne_nil '/' text)
      rw [hsplit] at hcs ih
      rcases List.mem_cons.mp hcs with rfl | hcs
      · exact List.not_mem_cons_of_ne_of_not_mem (fun hc => hslash (beq_iff_eq.mpr hc.symm))
          (ih first List.mem_cons_self)
      · exact ih cs (List.mem_cons_of_mem _ hcs)

/-- Segments without slashes are those of the path that they make. -/
theorem segments_intercalate {segments : List String} (hne : segments ≠ [])
    (h : ∀ segment ∈ segments, '/' ∉ segment.toList) :
    (⟨"/".intercalate segments⟩ : Path).segments = segments := by
  rw [Path.segments, String.toList_intercalate]
  show (List.splitOn '/' (['/'].intercalate _)).map _ = _
  rw [List.splitOn_intercalate '/' (by simpa using h) (by simpa using hne), List.map_map]
  simp

/-- A path starts at the root if it has an empty segment in front of others. -/
theorem isRooted_iff {path : Path} {first : String} {others : List String}
    (h : path.segments = first :: others) : path.isRooted ↔ first = "" ∧ others ≠ [] := by
  have htext : path.text.toList = ['/'].intercalate ((first :: others).map String.toList) := by
    rw [← h, segments, List.map_map]
    simp [Function.comp_def]
  have hslash : '/' ∉ first.toList := slash_not_mem_segment (h ▸ List.mem_cons_self)
  rw [isRooted, htext, beq_iff_eq, ← String.toList_eq_nil_iff]
  cases others with
  | nil =>
    have hhead (hfirst : first.toList.head? = some '/') : False :=
      hslash (List.mem_of_mem_head? hfirst)
    simpa using hhead
  | cons other others =>
    cases hfirst : first.toList with
    | nil => simp [hfirst, List.intercalate_cons_cons]
    | cons c cs =>
      have hc : c ≠ '/' := by
        rintro rfl
        exact hslash (hfirst ▸ List.mem_cons_self)
      simp [hfirst, List.intercalate_cons_cons, hc]

theorem trimFolder_subset (segments : List String) : trimFolder segments ⊆ segments := by
  cases segments with
  | nil => exact List.Subset.refl _
  | cons first others =>
    exact List.cons_subset_cons _ (prefix_trimIdle others).subset

theorem segments_sibling (path : Path) {name : String} (hname : '/' ∉ name.toList) :
    (path.sibling name).segments = trimFolder (trimIdle path.segments).dropLast ++ [name] := by
  refine segments_intercalate (by simp) fun segment hsegment => ?_
  rcases List.mem_append.mp hsegment with hsegment | hsegment
  · have hmem := List.dropLast_subset _ (trimFolder_subset _ hsegment)
    exact slash_not_mem_segment ((prefix_trimIdle _).subset hmem)
  · rwa [List.mem_singleton.mp hsegment]

/-- The path to a sibling has the name of the sibling as its last step, and the other steps are
those of the path. -/
theorem sibling_steps {path : Path} {file name : String} (h : path.fileName? = some file)
    (hname : '/' ∉ name.toList) (hidle : isIdle name = false) :
    (path.sibling name).isRooted = path.isRooted ∧
      ∃ folder, path.steps = folder ++ [file] ∧ (path.sibling name).steps = folder ++ [name] := by
  obtain ⟨folder, hfolder, hfile⟩ := exists_trimIdle_eq h
  have hsibling := segments_sibling path hname
  rw [hfolder, List.dropLast_concat] at hsibling
  constructor
  · -- both paths start with the folder's first segment, if it has one
    obtain ⟨idle, hidles⟩ : folder ++ [file] <+: path.segments :=
      hfolder ▸ prefix_trimIdle path.segments
    rw [Bool.eq_iff_iff]
    cases folder with
    | nil =>
      rw [isRooted_iff hidles.symm, isRooted_iff hsibling]
      simp_all [isIdle]
    | cons first others =>
      rw [isRooted_iff hidles.symm, isRooted_iff hsibling]
      simp
  · refine ⟨folder.filter (!isIdle ·), ?_, ?_⟩
    · rw [steps, ← filter_trimIdle, hfolder, List.filter_append]
      simp [hfile]
    · rw [steps, hsibling, List.filter_append, filter_trimFolder]
      simp [hidle]

end Path

/-! ## Arguments with and without the flag -/

/-- A check that passes lets the value through. -/
theorem ite_error_eq_ok_iff {ε α : Type} {p : Prop} [Decidable p] {e : ε} {a b : α} :
    (if p then Except.error e else Except.ok a) = Except.ok b ↔ ¬p ∧ a = b := by
  split <;> simp [*]

namespace Options

namespace Draft

/-- The drafts ask for the same, apart from the policy. -/
def Agrees (draft draft' : Draft) : Prop :=
  draft.input = draft'.input ∧ draft.output = draft'.output ∧ draft.print = draft'.print

/-- If both readings succeed and a file has been given, the drafts agree. -/
def Alike (reading reading' : Except UsageError Draft) : Prop :=
  ∀ draft draft', reading = .ok draft → reading' = .ok draft' → draft.input ≠ none →
    draft.Agrees draft'

/-- Readings are alike if what they go through is related in a way that makes their ends alike. -/
theorem alike_bind {reading reading' : Except UsageError Draft}
    {following following' : Draft → Except UsageError Draft} (Related : Draft → Draft → Prop)
    (hrelated : ∀ draft draft', reading = .ok draft → reading' = .ok draft' → Related draft draft')
    (h : ∀ draft draft', Related draft draft' → Alike (following draft) (following' draft')) :
    Alike (reading >>= following) (reading' >>= following') := by
  intro result result' hresult hresult'
  obtain ⟨draft, hdraft, hresult⟩ := bind_eq_ok_iff.mp hresult
  obtain ⟨draft', hdraft', hresult'⟩ := bind_eq_ok_iff.mp hresult'
  exact h draft draft' (hrelated draft draft' hdraft hdraft') result result' hresult hresult'

/-- Readings that start with the same one are alike if what follows it is. -/
theorem alike_bind_same {reading : Except UsageError Draft}
    {following following' : Draft → Except UsageError Draft}
    (h : ∀ draft, Alike (following draft) (following' draft)) :
    Alike (reading >>= following) (reading >>= following') := by
  apply alike_bind Eq
  · intro draft draft' hdraft hdraft'
    exact Except.ok.inj (hdraft.symm.trans hdraft')
  · rintro draft _ rfl
    exact h draft

section Equations

variable (draft : Draft) {argument value : String} (arguments : List String)

theorem read_input (h : Argument.ofChars argument.toList = .input) :
    draft.read (argument :: arguments) = draft.addInput argument >>= (·.read arguments) := by
  rw [read.eq_def]
  simp only [h]

theorem read_firstMatch (h : Argument.ofChars argument.toList = .firstMatch) :
    draft.read (argument :: arguments) = draft.addFirstMatch argument >>= (·.read arguments) := by
  rw [read.eq_def]
  simp only [h]

theorem read_print (h : Argument.ofChars argument.toList = .print) :
    draft.read (argument :: arguments) = draft.addPrint argument >>= (·.read arguments) := by
  rw [read.eq_def]
  simp only [h]

theorem read_endOfOptions (h : Argument.ofChars argument.toList = .endOfOptions) :
    draft.read (argument :: arguments) = arguments.foldlM addInput draft := by
  rw [read.eq_def]
  simp only [h]

theorem read_unknown (h : Argument.ofChars argument.toList = .unknown) :
    draft.read (argument :: arguments) = .error (.unknown argument) := by
  rw [read.eq_def]
  simp only [h]

theorem read_attached (h : Argument.ofChars argument.toList = .output (some value)) :
    draft.read (argument :: arguments) =
      draft.addOutput argument value >>= (·.read arguments) := by
  rw [read.eq_def]
  simp only [h]

theorem read_output (h : Argument.ofChars argument.toList = .output none) :
    draft.read (argument :: value :: arguments) =
      if Argument.ofChars value.toList = .input then
        draft.addOutput argument value >>= (·.read arguments)
      else .error .missingValue := by
  rw [read.eq_def]
  simp only [h]

end Equations

/-- Behind the mark that ends the options there is at most one argument, which is the file. -/
theorem addInputs_eq_ok_iff {draft result : Draft} {arguments : List String} :
    arguments.foldlM addInput draft = .ok result ↔
      arguments = [] ∧ draft = result ∨
        ∃ argument, arguments = [argument] ∧ draft.input = none ∧
          { draft with input := some ⟨argument⟩ } = result := by
  match arguments with
  | [] => simp [pure, Except.pure]
  | [argument] =>
    rw [List.foldlM_cons, bind_eq_ok_iff]
    simp [addInput, ite_error_eq_ok_iff, pure, Except.pure]
  | argument :: another :: others =>
    simp [bind_eq_ok_iff, addInput, ite_error_eq_ok_iff]

/-- Updates that depend on a check agree if they agree where both checks pass. -/
theorem agrees_of_checks {p q : Prop} [Decidable p] [Decidable q] {e e' : UsageError}
    {updated updated' next next' : Draft}
    (hnext : (if p then Except.error e else .ok updated) = .ok next)
    (hnext' : (if q then Except.error e' else .ok updated') = .ok next')
    (h : updated.Agrees updated') : next.Agrees next' := by
  obtain ⟨-, rfl⟩ := ite_error_eq_ok_iff.mp hnext
  obtain ⟨-, rfl⟩ := ite_error_eq_ok_iff.mp hnext'
  exact h

/-- Drafts that agree before some arguments agree behind them. -/
theorem Agrees.read {draft draft' : Draft} (h : draft.Agrees draft') (arguments : List String) :
    Alike (draft.read arguments) (draft'.read arguments) := by
  fun_induction Draft.read draft arguments generalizing draft' with
  | case1 draft =>
    rintro _ _ ⟨⟩ ⟨⟩ _
    exact h
  | case2 draft argument others hkind ih =>
    rw [read_input _ _ hkind]
    refine alike_bind Agrees (fun _ _ hnext hnext' => ?_) fun _ _ => ih _
    exact agrees_of_checks hnext hnext' ⟨rfl, h.2⟩
  | case3 draft argument others hkind ih =>
    rw [read_firstMatch _ _ hkind]
    refine alike_bind Agrees (fun _ _ hnext hnext' => ?_) fun _ _ => ih _
    exact agrees_of_checks hnext hnext' h
  | case4 draft argument others hkind ih =>
    rw [read_print _ _ hkind]
    refine alike_bind Agrees (fun _ _ hnext hnext' => ?_) fun _ _ => ih _
    exact agrees_of_checks hnext hnext' ⟨h.1, h.2.1, rfl⟩
  | case5 draft argument others hkind =>
    -- all that can follow is the file
    rw [read_endOfOptions _ _ hkind]
    intro result result' hresult hresult' _
    rcases addInputs_eq_ok_iff.mp hresult with ⟨rfl, rfl⟩ | ⟨input, rfl, -, rfl⟩
    · cases hresult'
      exact h
    · rcases addInputs_eq_ok_iff.mp hresult' with ⟨hnil, -⟩ | ⟨input', hinputs, -, rfl⟩
      · cases hnil
      · cases hinputs
        exact ⟨rfl, h.2⟩
  | case6 draft argument others hkind => rintro _ _ ⟨⟩
  | case7 draft argument others value hkind ih =>
    rw [read_attached _ _ hkind]
    refine alike_bind Agrees (fun _ _ hnext hnext' => ?_) fun _ _ => ih _
    exact agrees_of_checks hnext hnext' ⟨h.1, rfl, h.2.2⟩
  | case8 draft argument hkind => rintro _ _ ⟨⟩
  | case9 draft argument hkind value others hvalue ih =>
    rw [read_output _ _ hkind, if_pos hvalue]
    refine alike_bind Agrees (fun _ _ hnext hnext' => ?_) fun _ _ => ih _
    exact agrees_of_checks hnext hnext' ⟨h.1, rfl, h.2.2⟩
  | case10 draft argument hkind value others hvalue => rintro _ _ ⟨⟩

/-- The flag that chooses the policy changes nothing else, wherever it stands. -/
theorem alike_flag {flag : String} (hflag : Argument.ofChars flag.toList = .firstMatch)
    (draft : Draft) (before after : List String) :
    Alike (draft.read (before ++ after)) (draft.read (before ++ flag :: after)) := by
  match before with
  | [] =>
    intro result result' hresult hresult'
    rw [List.nil_append, read_firstMatch _ _ hflag] at hresult'
    obtain ⟨next, hnext, hresult'⟩ := bind_eq_ok_iff.mp hresult'
    obtain ⟨-, rfl⟩ := ite_error_eq_ok_iff.mp hnext
    have hagrees : draft.Agrees { draft with firstMatch := true } := ⟨rfl, rfl, rfl⟩
    exact hagrees.read after result result' hresult hresult'
  | argument :: before =>
    rw [List.cons_append, List.cons_append]
    cases hkind : Argument.ofChars argument.toList with
    | input =>
      rw [read_input _ _ hkind, read_input _ _ hkind]
      exact alike_bind_same fun next => alike_flag hflag next before after
    | firstMatch =>
      rw [read_firstMatch _ _ hkind, read_firstMatch _ _ hkind]
      exact alike_bind_same fun next => alike_flag hflag next before after
    | print =>
      rw [read_print _ _ hkind, read_print _ _ hkind]
      exact alike_bind_same fun next => alike_flag hflag next before after
    | endOfOptions =>
      -- the flag is a file here, and so it would be the only one
      rw [read_endOfOptions _ _ hkind, read_endOfOptions _ _ hkind]
      intro result result' hresult hresult' hinput
      rcases addInputs_eq_ok_iff.mp hresult' with ⟨hnil, -⟩ | ⟨input, hsingle, hnone, -⟩
      · simp at hnil
      · obtain ⟨rfl, rfl, rfl⟩ : before = [] ∧ after = [] ∧ flag = input := by
          cases before <;> simp_all
        cases hresult
        exact absurd hnone hinput
    | unknown =>
      rw [read_unknown _ _ hkind]
      rintro _ _ ⟨⟩
    | output value =>
      cases value with
      | some value =>
        rw [read_attached _ _ hkind, read_attached _ _ hkind]
        exact alike_bind_same fun next => alike_flag hflag next before after
      | none =>
        cases before with
        | nil =>
          -- the flag is no value
          rw [List.nil_append, List.nil_append, read_output _ _ hkind, if_neg (by simp [hflag])]
          rintro _ _ _ ⟨⟩
        | cons value before =>
          rw [List.cons_append, List.cons_append, read_output _ _ hkind, read_output _ _ hkind]
          split
          · exact alike_bind_same fun next => alike_flag hflag next before after
          · rintro _ _ ⟨⟩
termination_by before.length

end Draft

theorem Draft.finish_eq_ok_iff {draft : Draft} {options : Options} :
    draft.finish = .ok options ↔
      draft.input = some options.input ∧ draft.output = options.output ∧
        (if draft.firstMatch then .first else .longest) = options.policy ∧
        draft.print = options.print := by
  obtain ⟨input, output, policy, print⟩ := options
  rw [finish]
  cases draft.input <;> simp

/-- The flag that chooses the policy changes no other option. -/
theorem ofArguments_flag {flag : String} (hflag : Argument.ofChars flag.toList = .firstMatch)
    {before after : List String} {options options' : Options}
    (h : ofArguments (before ++ after) = .ok options)
    (h' : ofArguments (before ++ flag :: after) = .ok options') :
    options' = { options with policy := options'.policy } := by
  obtain ⟨draft, hdraft, h⟩ := bind_eq_ok_iff.mp h
  obtain ⟨draft', hdraft', h'⟩ := bind_eq_ok_iff.mp h'
  obtain ⟨hinput, houtput, -, hprint⟩ := Draft.finish_eq_ok_iff.mp h
  obtain ⟨hinput', houtput', -, hprint'⟩ := Draft.finish_eq_ok_iff.mp h'
  have hagrees : draft.Agrees draft' :=
    Draft.alike_flag hflag {} before after draft draft' hdraft hdraft' (by simp [hinput])
  rw [Draft.Agrees, hinput, hinput', houtput, houtput', hprint, hprint', Option.some_inj] at hagrees
  rw [hagrees.1, hagrees.2.1, hagrees.2.2]

/-- Without an option for it, the file to be written is next to the source file. -/
theorem target_steps {options : Options} (h : options.input.extension? = some "txt")
    (houtput : options.output = none) :
    options.target.isRooted = options.input.isRooted ∧
      ∃ folder name, options.input.steps = folder ++ [name] ∧
        options.target.steps = folder ++ ["Main.java"] := by
  obtain ⟨name, hname, -⟩ := Option.bind_eq_some_iff.mp h
  have htarget : options.target = options.input.sibling "Main.java" := by
    rw [target, houtput]
    rfl
  rw [htarget]
  obtain ⟨hrooted, folder, hsteps⟩ := Path.sibling_steps hname
    (show '/' ∉ "Main.java".toList by decide) (show Path.isIdle "Main.java" = false by decide)
  exact ⟨hrooted, folder, name, hsteps⟩

end Options

end Straightline
