import Straightline.Proofs.Delivery
import Straightline.Proofs.Options
import Straightline.Proofs.Policies

/-!
# Runs of the command

A run of the command either does all that it is asked for or changes no file. It ends in one of four
ways (`Options.Ends`): the source file is of no use, the compilation or the delivery fails, the body
is printed, or the class file is written. The state of the files and the source text tell which one
it is, so each status has an exact condition. The policy has no part in this (`Options.run_policy`).

Main statement: `run_all_or_nothing`.
-/

namespace Straightline

/-! ## What a run does -/

theorem compile_policy (policy policy' : Policy) (source : String) :
    compile policy source = compile policy' source := by
  rw [compile, compile, readProgram, readProgram, tokenize, tokenize, scan, scan,
    scanFrom_eq policy policy']

namespace Options

section Effects

variable {m : Type → Type} [Monad m] [LawfulMonad m] (options : Options) (files : Files m)

/-- Processing compiles first, and what it does then is up to the body. -/
theorem process_eq (source : String) :
    options.process files source =
      match compile options.policy source with
      | .error e => pure (.failed e)
      | .ok body =>
        if options.print then pure (.printed body)
        else do
          match ← files.write options.target (Java.classFile body) with
          | .ok _ => return .written
          | .error fault => return .failed (.write ⟨options.target.text, fault.message⟩) := by
  rw [process]
  cases hprint : options.print with
  | true => cases compile options.policy source <;> rfl
  | false =>
    show deliver (Sink.classFile files options.target) ⟨options.policy, source⟩ >>= _ = _
    cases h : compile options.policy source with
    | error e =>
      have hresult : (⟨options.policy, source⟩ : Request).result = .error e := h
      rw [deliver_of_error _ hresult, pure_bind]
    | ok body =>
      have hresult : (⟨options.policy, source⟩ : Request).result = .ok body := h
      rw [deliver_of_ok _ hresult, Sink.classFile, map_bind, bind_assoc]
      refine bind_congr fun answer => ?_
      cases answer <;> simp [Request.report]

/-- The policy has no influence on what is done. -/
theorem run_policy (policy : Policy) :
    ({ options with policy := policy } : Options).run files = options.run files := by
  simp only [run, process_eq, compile_policy policy options.policy]
  rfl

end Effects

section Ends

variable {State File : Type} (options : Options) (files : Files (StateM State)) (s : State)

/-- The source file has the wrong extension or cannot be read. -/
def Unusable : Prop :=
  options.input.extension? ≠ some "txt" ∨
    ∃ fault, ((files.read options.input).run s).1 = .error fault

/-- A stage of the compilation fails on the source text, or the delivery of its body does. -/
inductive Fails (source : String) : (stage message : String) → Prop where
  | lexing {e : LexError} (h : compile options.policy source = .error (.lex e)) :
    Fails source "Lexer" e.message
  | parsing {e : ParseError} (h : compile options.policy source = .error (.parse e)) :
    Fails source "Parser" e.message
  | delivery {body : String} {fault : Fault} (hprint : options.print = false)
    (hbody : compile options.policy source = .ok body)
    (hwrite : ((files.write options.target (Java.classFile body)).run s).1 = .error fault) :
    Fails source "Backend" (WriteError.message ⟨options.target.text, fault.message⟩)

/-- The ways in which a run can end: with an outcome, and with a state of the files. -/
inductive Ends (view : FileView State File) : Outcome → State → Prop where
  | unusable {errors : String} (h : options.Unusable files s) : Ends view ⟨2, "", errors⟩ s
  | failed {source stage message : String} (husable : ¬options.Unusable files s)
    (hsource : ((files.read options.input).run s).1 = .ok source)
    (h : options.Fails files s source stage message) :
    Ends view ⟨1, "", stage ++ " error!\n" ++ message ++ "\n"⟩ s
  | printed {source body : String} (husable : ¬options.Unusable files s)
    (hsource : ((files.read options.input).run s).1 = .ok source)
    (hbody : compile options.policy source = .ok body) (h : options.print = true) :
    Ends view ⟨0, body ++ "\n", ""⟩ s
  | written {source body : String} {s' : State} (husable : ¬options.Unusable files s)
    (hsource : ((files.read options.input).run s).1 = .ok source)
    (hbody : compile options.policy source = .ok body) (h : options.print = false)
    (hwrite : ((files.write options.target (Java.classFile body)).run s).1 = .ok ())
    (hwrote : view.Wrote s s' options.target (Java.classFile body)) :
    Ends view ⟨0, "", ""⟩ s'

variable {options files s}

/-- A failure has one stage and one message. -/
theorem Fails.unique {source stage stage' message message' : String}
    (h : options.Fails files s source stage message)
    (h' : options.Fails files s source stage' message') : stage = stage' ∧ message = message' := by
  cases h <;> cases h' <;> simp_all

/-- Nothing fails if there is a body and, unless it is to be printed, it can be written. -/
theorem not_fails {source body stage message : String}
    (hbody : compile options.policy source = .ok body)
    (hwrite : options.print = false →
      ((files.write options.target (Java.classFile body)).run s).1 = .ok ()) :
    ¬options.Fails files s source stage message := by
  intro h
  cases h with
  | lexing h | parsing h => cases hbody.symm.trans h
  | delivery hprint hbody' hfault =>
    cases hbody.symm.trans hbody'
    cases (hwrite hprint).symm.trans hfault

theorem Fails.of_compile {source : String} {e : Error}
    (h : compile options.policy source = .error e) :
    options.Fails files s source e.stage e.message := by
  rcases compile_eq_error_iff.mp h with ⟨l, -, rfl⟩ | ⟨_, p, -, -, rfl⟩
  · exact .lexing h
  · exact .parsing h

/-- A source text that has been read is processed to one of the ends. -/
theorem ends_process {view : FileView State File} (hfiles : files.Faithful view) {source : String}
    (husable : ¬options.Unusable files s)
    (hsource : ((files.read options.input).run s).1 = .ok source) :
    options.Ends files s view ((options.process files source).run s).1
      ((options.process files source).run s).2 := by
  rw [process_eq]
  cases hbody : compile options.policy source with
  | error e =>
    show options.Ends files s view ⟨1, "", e.stage ++ " error!\n" ++ e.message ++ "\n"⟩ s
    exact .failed husable hsource (.of_compile hbody)
  | ok body =>
    cases hprint : options.print with
    | true => exact .printed husable hsource hbody hprint
    | false =>
      have hwrote := @hfiles.wrote_of_write options.target (Java.classFile body) s
      have hsame := @hfiles.state_write options.target (Java.classFile body) s
      have hfails := @Fails.delivery _ options files s source body
      have hwritten := @Ends.written _ _ options files s view source body
      simp only [Bool.false_eq_true, if_false, StateT.run_bind]
      -- what is known of the write is known of its answer and of the state behind it
      generalize (files.write options.target (Java.classFile body)).run s = writing at *
      obtain ⟨answer, s'⟩ := writing
      cases answer with
      | ok _ => exact hwritten husable hsource hbody hprint rfl (hwrote rfl)
      | error fault =>
        obtain rfl := hsame rfl
        exact .failed husable hsource (hfails hprint hbody rfl)

/-- A run reads the source file, which changes nothing, and processes it. -/
theorem run_eq {view : FileView State File} (hfiles : files.Faithful view) (s : State) :
    (options.run files).run s =
      if options.input.extension? = some Outcome.sourceExtension then
        match ((files.read options.input).run s).1 with
        | .ok source => (options.process files source).run s
        | .error fault => (.unreadable options.input fault, s)
      else (.wrongExtension, s) := by
  have hread := hfiles.state_read options.input s
  rw [run]
  split
  · rw [StateT.run_bind]
    generalize (files.read options.input).run s = reading at hread ⊢
    obtain ⟨answer, s'⟩ := reading
    cases hread
    cases answer <;> rfl
  · rfl

/-- A run comes to one of the ends. -/
theorem ends_run {view : FileView State File} (hfiles : files.Faithful view) :
    options.Ends files s view ((options.run files).run s).1 ((options.run files).run s).2 := by
  rw [run_eq hfiles]
  by_cases hextension : options.input.extension? = some Outcome.sourceExtension
  · rw [if_pos hextension]
    cases hsource : ((files.read options.input).run s).1 with
    | error fault => exact .unusable (.inr ⟨fault, hsource⟩)
    | ok source =>
      refine ends_process hfiles ?_ hsource
      rintro (h | ⟨fault, hfault⟩)
      · exact h hextension
      · cases hsource.symm.trans hfault
  · rw [if_neg hextension]
    exact .unusable (.inl hextension)

theorem exists_source (h : ¬options.Unusable files s) :
    ∃ source, ((files.read options.input).run s).1 = .ok source := by
  cases hread : ((files.read options.input).run s).1 with
  | ok source => exact ⟨source, rfl⟩
  | error fault => exact absurd (.inr ⟨fault, hread⟩) h

namespace Ends

variable {view : FileView State File} {outcome : Outcome} {s' : State}
  (h : options.Ends files s view outcome s')

include h

/-- Nothing is done with a source file that is of no use. -/
theorem of_unusable (hunusable : options.Unusable files s) :
    outcome.output = "" ∧ s' = s := by
  cases h with
  | unusable => exact ⟨rfl, rfl⟩
  | failed husable | printed husable | written husable => exact absurd hunusable husable

theorem status_eq_two_iff : outcome.status = 2 ↔ options.Unusable files s := by
  cases h with
  | unusable hunusable => simp [hunusable]
  | failed husable | printed husable | written husable => simp [husable]

section Usable

variable (husable : ¬options.Unusable files s) {source : String}
  (hsource : ((files.read options.input).run s).1 = .ok source)

include husable hsource

/-- A failure leaves its message and no more, for the other ends exclude it. -/
theorem of_fails {stage message : String} (hfails : options.Fails files s source stage message) :
    outcome = ⟨1, "", stage ++ " error!\n" ++ message ++ "\n"⟩ ∧ s' = s := by
  cases h with
  | unusable hunusable => exact absurd hunusable husable
  | failed _ hsource' hfails' =>
    obtain rfl := Except.ok.inj (hsource.symm.trans hsource')
    obtain ⟨rfl, rfl⟩ := hfails.unique hfails'
    exact ⟨rfl, rfl⟩
  | printed _ hsource' hbody hprint =>
    obtain rfl := Except.ok.inj (hsource.symm.trans hsource')
    exact absurd hfails (not_fails hbody (by simp [hprint]))
  | written _ hsource' hbody _ hwrite =>
    obtain rfl := Except.ok.inj (hsource.symm.trans hsource')
    exact absurd hfails (not_fails hbody fun _ => hwrite)

/-- Without a failure the body is printed or written. -/
theorem of_not_fails
    (hnone : ∀ stage message, ¬options.Fails files s source stage message) :
    outcome.status = 0 ∧ ∃ body, compile options.policy source = .ok body ∧
      (options.print = true → outcome.output = body ++ "\n" ∧ s' = s) ∧
      (options.print = false →
        outcome.output = "" ∧ view.Wrote s s' options.target (Java.classFile body)) := by
  cases h with
  | unusable hunusable => exact absurd hunusable husable
  | failed _ hsource' hfails =>
    obtain rfl := Except.ok.inj (hsource.symm.trans hsource')
    exact absurd hfails (hnone _ _)
  | @printed _ body _ hsource' hbody hprint =>
    obtain rfl := Except.ok.inj (hsource.symm.trans hsource')
    exact ⟨rfl, body, hbody, by simp [hprint]⟩
  | @written _ body _ _ hsource' hbody hprint _ hwrote =>
    obtain rfl := Except.ok.inj (hsource.symm.trans hsource')
    exact ⟨rfl, body, hbody, by simp [hprint], fun _ => ⟨rfl, hwrote⟩⟩

theorem status_eq_one_iff :
    outcome.status = 1 ↔ ∃ stage message, options.Fails files s source stage message := by
  constructor
  · intro hstatus
    by_contra hnone
    simp only [not_exists] at hnone
    simp [(h.of_not_fails husable hsource hnone).1] at hstatus
  · rintro ⟨stage, message, hfails⟩
    rw [(h.of_fails husable hsource hfails).1]

end Usable

end Ends

end Ends

end Options

/-- A run with arguments that are understood either does what they ask for or changes no file.

It has status 2 if the source file has another extension than `txt` or cannot be read. Otherwise it
has status 1 if the compilation fails or, unless the body is to be printed, the delivery does. All
that it leaves behind then is a message. Otherwise it has status 0, and either prints the body and
changes no file, or writes the class file to the file that an option gives or to `Main.java` next to
the source file, and changes no other file. The flag that chooses the policy makes no difference. -/
theorem run_all_or_nothing {State File : Type} {files : Files (StateM State)}
    {view : FileView State File} (hfiles : files.Faithful view) {arguments : List String}
    {options : Options} (h : Options.ofArguments arguments = .ok options) (s : State) :
    let outcome := ((options.run files).run s).1
    let s' := ((options.run files).run s).2
    (outcome.status = 2 ↔ options.Unusable files s) ∧
    (options.Unusable files s → outcome.output = "" ∧ s' = s) ∧
    (¬options.Unusable files s →
      ∃ source, ((files.read options.input).run s).1 = .ok source ∧
        view.Holds s options.input source ∧
        (outcome.status = 1 ↔ ∃ stage message, options.Fails files s source stage message) ∧
        (∀ stage message, options.Fails files s source stage message →
          outcome.output = "" ∧ outcome.errors = stage ++ " error!\n" ++ message ++ "\n" ∧ s' = s) ∧
        ((∀ stage message, ¬options.Fails files s source stage message) →
          outcome.status = 0 ∧ ∃ body, compile options.policy source = .ok body ∧
            (options.print = true → outcome.output = body ++ "\n" ∧ s' = s) ∧
            (options.print = false → outcome.output = "" ∧
              view.Wrote s s' options.target (Java.classFile body) ∧
              (∀ path, options.output = some path → options.target = path) ∧
              (options.output = none → options.target.isRooted = options.input.isRooted ∧
                ∃ folder name, options.input.steps = folder ++ [name] ∧
                  options.target.steps = folder ++ ["Main.java"])))) ∧
    ∀ before after flag options', arguments = before ++ after →
      Options.Argument.ofChars flag.toList = .firstMatch →
      Options.ofArguments (before ++ flag :: after) = .ok options' →
      (options'.run files).run s = (options.run files).run s := by
  intro outcome s'
  have hends : options.Ends files s view outcome s' := Options.ends_run hfiles
  refine ⟨hends.status_eq_two_iff, hends.of_unusable, ?_, ?_⟩
  · intro husable
    obtain ⟨source, hsource⟩ := Options.exists_source husable
    refine ⟨source, hsource, hfiles.holds_of_read hsource,
      hends.status_eq_one_iff husable hsource, ?_, ?_⟩
    · intro stage message hfails
      obtain ⟨houtcome, hsame⟩ := hends.of_fails husable hsource hfails
      rw [houtcome]
      exact ⟨rfl, rfl, hsame⟩
    · intro hnone
      obtain ⟨hstatus, body, hbody, hprinted, hwritten⟩ := hends.of_not_fails husable hsource hnone
      refine ⟨hstatus, body, hbody, hprinted, fun hprint => ?_⟩
      refine ⟨(hwritten hprint).1, (hwritten hprint).2, ?_, ?_⟩
      · intro path hpath
        rw [Options.target, hpath, Option.getD_some]
      · exact Options.target_steps (not_not.mp fun hne => husable (.inl hne))
  · rintro before after flag options' rfl hflag h'
    rw [Options.ofArguments_flag hflag h h', Options.run_policy]

/-- The folder of the output file does not exist, so the body is not delivered and nothing changes.
The flag makes no difference. -/
theorem run_all_or_nothing_missing_folder :
    ∃ tree : FileTree,
      tree = (FileTree.ofHome ["a"]).putFile ["a", "b.txt"] "print(1);".toUTF8.data ∧
      ∃ options, Options.ofArguments ["b.txt", "-o", "c/D.java"] = .ok options ∧
        ((options.run FileTree.access).run tree).1.status = 1 ∧
        ((options.run FileTree.access).run tree).1.errors = "Backend error!\n" ++
          "failed to write c/D.java: No such file or directory (os error 2)\n" ∧
        ((options.run FileTree.access).run tree).2 = tree ∧
        ∃ options',
          Options.ofArguments ["b.txt", "--first-match", "-o", "c/D.java"] = .ok options' ∧
          (options'.run FileTree.access).run tree = (options.run FileTree.access).run tree := by
  obtain ⟨tree, htree⟩ : ∃ tree : FileTree,
      tree = (FileTree.ofHome ["a"]).putFile ["a", "b.txt"] "print(1);".toUTF8.data := ⟨_, rfl⟩
  have hread : ((FileTree.access.read ⟨"b.txt"⟩).run tree).1 = .ok "print(1);" := by
    rw [htree]
    decide +kernel
  have hwrite : ((FileTree.access.write ⟨"c/D.java"⟩
      (Java.classFile "\x7b\nSystem.out.print(1);;\n\x7d")).run tree).1 = .error .notFound := by
    rw [htree]
    decide +kernel
  have harguments : Options.ofArguments ["b.txt", "-o", "c/D.java"] =
      .ok ⟨⟨"b.txt"⟩, some ⟨"c/D.java"⟩, .longest, false⟩ := by decide +kernel
  refine ⟨tree, htree, _, harguments, ?_⟩
  obtain ⟨-, -, husable, hflag⟩ := run_all_or_nothing FileTree.faithful_access harguments tree
  obtain ⟨source, hsource, -, hstatus, hfails, -⟩ := husable (by
    rintro (h | ⟨fault, h⟩)
    · exact h (by decide +kernel)
    · cases hread.symm.trans h)
  obtain rfl := Except.ok.inj (hread.symm.trans hsource)
  have hdelivery := @Options.Fails.delivery _ ⟨⟨"b.txt"⟩, some ⟨"c/D.java"⟩, .longest, false⟩
    FileTree.access tree "print(1);" _ _ rfl (by decide +kernel) hwrite
  obtain ⟨-, herrors, hsame⟩ := hfails _ _ hdelivery
  refine ⟨hstatus.mpr ⟨_, _, hdelivery⟩, herrors, hsame, _, ?_,
    hflag ["b.txt"] ["-o", "c/D.java"] "--first-match" ⟨⟨"b.txt"⟩, some ⟨"c/D.java"⟩, .first, false⟩
      rfl (by decide +kernel) ?_⟩
  · decide +kernel
  · decide +kernel

end Straightline
