import Straightline.Proofs.FileAccess
import Straightline.Sink

/-!
# Delivery to a sink

Several source texts can be compiled into one sink, one after the other. What the sink gets to see
is then the list of the bodies of those that compile, each once and in order, and nothing of the
others (`compileAll_eq`). So its state depends on these bodies alone, whatever happens between them.

The equation holds for every sink and all effects that it may have. For a sink with a state it tells
the state behind every history (`state_compileAll`), for the sink that keeps a body which one it
keeps (`state_compileAll_memory`), and for the sink that writes class files what the file holds
(`compileAll_classFile`).

Main statement: `sink_gets_compiled_bodies`.
-/

namespace Straightline

/-- What is to be compiled: a source text, and how to choose among lexical rules. -/
structure Request where
  policy : Policy
  source : String
deriving DecidableEq, Repr

/-- What a sink says of a body: what it has done with it, or why it could not take it. -/
abbrev Answer := Except WriteError (List Event)

namespace Request

/-- What the request compiles to. -/
def result (request : Request) : Except Error String :=
  compile request.policy request.source

/-- What compiling the request does. -/
def events (request : Request) : List Event :=
  compileEvents request.policy request.source

/-- The report of a request whose body has got an answer. A failure of the sink is a failure of the
request. -/
def report (request : Request) : Answer → Report
  | .ok further => ⟨request.events ++ further, .ok ()⟩
  | .error e => ⟨request.events, .error (.write e)⟩

end Request

/-- The bodies of the requests that compile, in order. -/
def bodies (requests : List Request) : List String :=
  requests.filterMap fun request => request.result.toOption

/-- The reports of requests, made of the answers to their bodies. A request that does not compile
takes no answer. -/
def reports : List Request → List Answer → List Report
  | [], _ => []
  | request :: requests, answers =>
    match request.result, answers with
    | .error e, answers => ⟨request.events, .error e⟩ :: reports requests answers
    | .ok _, answer :: answers => request.report answer :: reports requests answers
    | .ok _, [] => []

section Effects

variable {m : Type → Type} [Monad m] (sink : Sink m)

/-- Compiles a request into a sink. -/
def deliver (request : Request) : m Report :=
  compileInto sink request.policy request.source

/-- Compiles requests into one sink, one after the other. -/
def compileAll (requests : List Request) : m (List Report) :=
  requests.mapM (deliver sink)

/-- A request that does not compile has no effect. -/
theorem deliver_of_error {request : Request} {e : Error} (h : request.result = .error e) :
    deliver sink request = pure ⟨request.events, .error e⟩ := by
  rw [Request.result] at h
  rw [deliver, compileInto, h]
  rfl

variable [LawfulMonad m]

/-- A request that compiles has the effect of offering its body, once. -/
theorem deliver_of_ok {request : Request} {body : String} (h : request.result = .ok body) :
    deliver sink request = request.report <$> sink.accept body := by
  rw [Request.result] at h
  rw [deliver, compileInto, h, map_eq_pure_bind]
  refine bind_congr fun answer => ?_
  cases answer <;> rfl

/-- Requests have the effects of offering the bodies of those that compile, each once and in
order. -/
theorem compileAll_eq (requests : List Request) :
    compileAll sink requests = reports requests <$> (bodies requests).mapM sink.accept := by
  induction requests with
  | nil => simp [compileAll, bodies, reports]
  | cons request requests ih =>
    rw [compileAll, List.mapM_cons, ← compileAll, ih]
    cases h : request.result with
    | error e =>
      rw [deliver_of_error sink h]
      simp [bodies, reports, h, Except.toOption]
    | ok body =>
      rw [deliver_of_ok sink h]
      simp [bodies, reports, h, Except.toOption]

end Effects

/-! ## Sinks with a state -/

/-- Steps with a state are run one behind the other. -/
theorem run_mapM_cons {State α β : Type} (f : α → StateM State β) (a : α) (as : List α)
    (s : State) :
    ((a :: as).mapM f).run s =
      (((f a).run s).1 :: ((as.mapM f).run ((f a).run s).2).1,
        ((as.mapM f).run ((f a).run s).2).2) := by
  rw [List.mapM_cons]
  rfl

section State

variable {State : Type} (sink : Sink (StateM State))

/-- The state behind a body. -/
def Sink.next (s : State) (body : String) : State :=
  ((sink.accept body).run s).2

/-- The state behind requests is the one behind their bodies. -/
theorem state_compileAll (requests : List Request) (s : State) :
    ((compileAll sink requests).run s).2 = (bodies requests).foldl sink.next s := by
  rw [compileAll_eq]
  show (((bodies requests).mapM sink.accept).run s).2 = _
  induction bodies requests generalizing s with
  | nil => rfl
  | cons body bodies ih =>
    rw [run_mapM_cons]
    exact ih _

/-- The sink, with a record of the bodies that it is offered. -/
def Sink.recorded : Sink (StateM (State × List String)) where
  accept body := fun (s, offered) =>
    let (answer, s') := (sink.accept body).run s
    (answer, s', offered ++ [body])

theorem run_accept_recorded (body : String) (s : State) (offered : List String) :
    (sink.recorded.accept body).run (s, offered) =
      (((sink.accept body).run s).1, ((sink.accept body).run s).2, offered ++ [body]) := rfl

/-- A record changes nothing, and it grows by the bodies in order. -/
theorem run_mapM_recorded (bodies : List String) (s : State) (offered : List String) :
    (bodies.mapM sink.recorded.accept).run (s, offered) =
      (((bodies.mapM sink.accept).run s).1, ((bodies.mapM sink.accept).run s).2,
        offered ++ bodies) := by
  induction bodies generalizing s offered with
  | nil =>
    rw [List.append_nil]
    rfl
  | cons body bodies ih =>
    simp only [run_mapM_cons, run_accept_recorded, ih, List.append_assoc, List.singleton_append]

theorem run_compileAll_recorded (requests : List Request) (s : State) (offered : List String) :
    (compileAll sink.recorded requests).run (s, offered) =
      (((compileAll sink requests).run s).1, ((compileAll sink requests).run s).2,
        offered ++ bodies requests) := by
  rw [compileAll_eq, compileAll_eq, StateT.run_map, run_mapM_recorded]
  rfl

end State

/-- The sink that keeps a body keeps the last one. -/
theorem state_compileAll_memory (requests : List Request) (held : Option String) :
    ((compileAll Sink.memory requests).run held).2 = (bodies requests).getLast?.or held := by
  rw [state_compileAll]
  induction bodies requests generalizing held with
  | nil => rfl
  | cons body bodies ih =>
    rw [List.foldl_cons, ih, List.getLast?_cons]
    cases bodies.getLast? <;> rfl

/-! ## Class files -/

/-- The bodies of the requests that are reported to have been delivered, in order. -/
def delivered (requests : List Request) (reports : List Report) : List String :=
  (requests.zip reports).filterMap fun (request, report) =>
    match report.result with
    | .ok _ => request.result.toOption
    | .error _ => none

section Delivered

variable {request : Request} {requests : List Request} {report : Report} {reports : List Report}

theorem delivered_cons_of_error {e : Error} (h : report.result = .error e) :
    delivered (request :: requests) (report :: reports) = delivered requests reports := by
  simp [delivered, h]

theorem delivered_cons_of_ok {body : String} (hbody : request.result = .ok body)
    (h : report.result = .ok ()) :
    delivered (request :: requests) (report :: reports) = body :: delivered requests reports := by
  simp [delivered, h, hbody, Except.toOption]

end Delivered

section ClassFile

variable {State File : Type} {files : Files (StateM State)} {view : FileView State File}

/-- What the sink makes of an attempt to write. -/
theorem run_accept_classFile (path : Path) (body : String) (s : State) :
    ((Sink.classFile files path).accept body).run s =
      match (files.write path (Java.classFile body)).run s with
      | (.ok _, s') => (.ok [.wrote path.text], s')
      | (.error fault, s') => (.error ⟨path.text, fault.message⟩, s') := by
  show (StateT.run (files.write path (Java.classFile body) >>= _) s) = _
  rw [StateT.run_bind]
  match (files.write path (Java.classFile body)).run s with
  | (.ok _, s') => rfl
  | (.error fault, s') => rfl

/-- A body is either written as a class file, or it is not and nothing changes. -/
theorem run_deliver_classFile (hfiles : files.Faithful view) (path : Path) {request : Request}
    {body : String} (h : request.result = .ok body) (s : State) :
    ∃ report s', (deliver (Sink.classFile files path) request).run s = (report, s') ∧
      (report.result = .ok () ∧ view.Wrote s s' path (Java.classFile body) ∨
        ∃ fault, report.result = .error (.write ⟨path.text, Fault.message fault⟩) ∧ s' = s) := by
  rw [deliver_of_ok _ h, StateT.run_map, run_accept_classFile]
  have hwrote := @hfiles.wrote_of_write path (Java.classFile body) s
  have hsame := @hfiles.state_write path (Java.classFile body) s
  generalize (files.write path (Java.classFile body)).run s = write at hwrote hsame ⊢
  obtain ⟨answer, s'⟩ := write
  cases answer with
  | ok _ => exact ⟨_, s', rfl, .inl ⟨rfl, hwrote rfl⟩⟩
  | error fault => exact ⟨_, s', rfl, .inr ⟨fault, rfl, hsame rfl⟩⟩

/-- Behind requests, the class file is that of the last body that was delivered. If there was none,
all is as before. -/
theorem compileAll_classFile (hfiles : files.Faithful view) (path : Path)
    (requests : List Request) (s : State) :
    let run := (compileAll (Sink.classFile files path) requests).run s
    (delivered requests run.1 = [] → run.2 = s) ∧
      ∀ body ∈ (delivered requests run.1).getLast?,
        view.Holds run.2 path (Java.classFile body) := by
  induction requests generalizing s with
  | nil => exact ⟨fun _ => rfl, by simp [delivered]⟩
  | cons request requests ih =>
    simp only [compileAll, run_mapM_cons] at ih ⊢
    cases h : request.result with
    | error e =>
      -- nothing is offered, so nothing is delivered and nothing changes
      rw [deliver_of_error _ h, StateT.run_pure]
      rw [delivered_cons_of_error rfl]
      exact ih s
    | ok body =>
      obtain ⟨report, s', hrun, ⟨hreport, hwrote⟩ | ⟨fault, hreport, rfl⟩⟩ :=
        run_deliver_classFile hfiles path h s
      · rw [hrun, delivered_cons_of_ok h hreport, List.getLast?_cons]
        obtain ⟨hnone, hlast⟩ := ih s'
        refine ⟨fun hnil => absurd hnil (List.cons_ne_nil _ _), ?_⟩
        rintro _ ⟨⟩
        -- the body is the last one, unless another one is delivered behind it
        cases hget : (delivered requests _).getLast? with
        | none =>
          rw [hnone (List.getLast?_eq_none_iff.mp hget)]
          exact hwrote.holds
        | some last => exact hlast last hget
      · rw [hrun, delivered_cons_of_error hreport]
        exact ih s'

end ClassFile

/-! ## Histories -/

/-- Compiling fails where there are no tokens, or where they make no program. -/
theorem compile_eq_error_iff {policy : Policy} {source : String} {e : Error} :
    compile policy source = .error e ↔
      (∃ l, tokenize policy source = .error l ∧ e = .lex l) ∨
        ∃ tokens p,
          tokenize policy source = .ok tokens ∧ parse tokens = .error p ∧ e = .parse p := by
  rw [compile, readProgram]
  cases htokens : tokenize policy source with
  | error l => simp [Except.mapError, bind, Except.bind, eq_comm]
  | ok tokens =>
    cases hparse : parse tokens with
    | error p => simp [Except.mapError, bind, Except.bind, hparse, eq_comm]
    | ok program => simp [Except.mapError, bind, Except.bind, hparse, pure, Except.pure]

/-- Of requests that are compiled into one sink, the sink gets the bodies of those that compile,
each once and in order, and nothing of the others: these are reported with the error of their
compilation and have no effect. An error of the sink is reported as such. -/
theorem sink_gets_compiled_bodies (requests : List Request) :
    (∀ {m : Type → Type} [Monad m] [LawfulMonad m] (sink : Sink m),
      compileAll sink requests = reports requests <$> (bodies requests).mapM sink.accept ∧
      ∀ request ∈ requests,
        (∀ e, request.result = .error e → ((∃ l, e = .lex l) ∨ ∃ p, e = .parse p) ∧
          deliver sink request = pure ⟨request.events, .error e⟩) ∧
        ∀ body, request.result = .ok body →
          deliver sink request = request.report <$> sink.accept body) ∧
    (∀ {State : Type} (sink : Sink (StateM State)) (s : State) (offered : List String),
      (compileAll sink.recorded requests).run (s, offered) =
        (((compileAll sink requests).run s).1, ((compileAll sink requests).run s).2,
          offered ++ bodies requests) ∧
      ((compileAll sink requests).run s).2 = (bodies requests).foldl sink.next s) ∧
    (∀ held, ((compileAll Sink.memory requests).run held).2 = (bodies requests).getLast?.or held) ∧
    ∀ {State File : Type} {files : Files (StateM State)} {view : FileView State File},
      files.Faithful view → ∀ path s,
        let run := (compileAll (Sink.classFile files path) requests).run s
        (delivered requests run.1 = [] → run.2 = s) ∧
          ∀ body ∈ (delivered requests run.1).getLast?,
            view.Holds run.2 path (Java.classFile body) := by
  refine ⟨fun sink => ⟨compileAll_eq sink requests, fun request _ => ⟨?_, ?_⟩⟩, ?_, ?_, ?_⟩
  · intro e he
    refine ⟨?_, deliver_of_error sink he⟩
    rcases compile_eq_error_iff.mp he with ⟨l, -, rfl⟩ | ⟨_, p, -, -, rfl⟩
    · exact .inl ⟨l, rfl⟩
    · exact .inr ⟨p, rfl⟩
  · exact fun body hbody => deliver_of_ok sink hbody
  · exact fun sink s offered =>
      ⟨run_compileAll_recorded sink requests s offered, state_compileAll sink requests s⟩
  · exact state_compileAll_memory requests
  · exact fun hfiles path s => compileAll_classFile hfiles path requests s

/-- The second text has no tokens and the third is no program. So the first and the last one are
offered, the sink that counts fails twice, and the file holds the class of the last one. -/
theorem sink_gets_compiled_bodies_failures :
    ∃ requests : List Request, requests =
        [⟨.longest, "int32 a;"⟩, ⟨.first, "a$"⟩, ⟨.longest, "print(a);"⟩, ⟨.first, "print(1);"⟩] ∧
      ((compileAll Sink.memory requests).run none).2 =
        some "\x7b\nSystem.out.print(1);;\n\x7d" ∧
      ((compileAll (Sink.counting (.error ⟨"Main.java", "full"⟩)) requests).run 0).2 = 2 ∧
      FileTree.view.Holds
        ((compileAll (Sink.classFile FileTree.access ⟨"Main.java"⟩) requests).run (.ofHome ["a"])).2
        ⟨"Main.java"⟩ (Java.classFile "\x7b\nSystem.out.print(1);;\n\x7d") := by
  refine ⟨_, rfl, ?_⟩
  obtain ⟨-, hstate, hmemory, hclassFile⟩ := sink_gets_compiled_bodies
    [⟨.longest, "int32 a;"⟩, ⟨.first, "a$"⟩, ⟨.longest, "print(a);"⟩, ⟨.first, "print(1);"⟩]
  refine ⟨?_, ?_, ?_⟩
  · rw [hmemory]
    decide +kernel
  · rw [(hstate _ _ []).2]
    decide +kernel
  · exact (hclassFile FileTree.faithful_access _ _).2 _ (by decide +kernel)

end Straightline
