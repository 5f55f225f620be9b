import MiniC.Command.Inspect
import MiniC.Proofs.Command.Session
import MiniC.Proofs.Run.OneLine

/-!
# What the commands report

On a console that refuses no write, a command answers and writes a fixed list of
texts on each channel, which can be read off its parts in order. The evaluating
command so reports the error of a source, or what was asked for of its program and
then the results or the failure of its run, each of them on a line of its own. The
inspecting command goes through the same stages, ends with the same code and lists
the same results.
-/

namespace MiniC

open Text

/-! ## Dumps -/

/-- A sink that has accepted further writes. -/
def Sink.adding (s : Sink) (ws : List Bytes) : Sink :=
  { s with accepted := ws.reverse ++ s.accepted }

theorem Sink.adding_adding (s : Sink) (ws vs : List Bytes) :
    (s.adding ws).adding vs = s.adding (ws ++ vs) := by
  simp [Sink.adding]

/-- A sink without a limit takes all lines of an outline. -/
theorem Outline.dump_eq (depth : Nat) (o : Outline) {s : Sink} (hs : s.room = none) :
    o.dump depth s = (true, s.adding (o.lines depth)) := by
  rw [Outline.dump_eq_writeAll, Sink.writeAll_of_free hs, Sink.offerAll_of_free hs, Sink.adding]

/-! ## Sessions -/

namespace Command

/-- A console behind further writes to its two channels. -/
def Console.adding (c : Console) (out err : List Bytes) : Console :=
  { out := c.out.adding out, err := err.reverse ++ c.err }

theorem Console.adding_adding (c : Console) (out err out' err' : List Bytes) :
    (c.adding out err).adding out' err' = c.adding (out ++ out') (err ++ err') := by
  simp [Console.adding, Sink.adding_adding]

variable {α β : Type}

/-- On a console that refuses nothing, a session answers and writes the given texts on the two
channels. -/
def Leaves (x : Session α) (a : α) (out err : List Bytes) : Prop :=
  ∀ c : Console, c.out.room = none → x.run c = (a, c.adding out err)

namespace Leaves

variable {x : Session α} {a : α} {out out' err err' : List Bytes}

/-- What a session offers on every console is left where nothing is refused. -/
theorem of_offers (h : Offers x a out err) : Leaves x a out err := by
  intro c hc
  rw [h c, Console.offering, Sink.offerAll_of_free hc]
  rfl

theorem bind {following : α → Session β} {b : β} (hx : Leaves x a out err)
    (hf : Leaves (following a) b out' err') :
    Leaves (x >>= following) b (out ++ out') (err ++ err') := by
  intro c hc
  rw [Session.run_bind (hx c hc), hf (c.adding out err) hc, Console.adding_adding]

/-- A session that ends with an answer of its own. -/
theorem answering (hx : Leaves x a out err) (b : β) :
    Leaves (x >>= fun _ => Pure.pure b) b out err := by
  have h : Leaves (x >>= fun _ => Pure.pure b) b (out ++ []) (err ++ []) :=
    hx.bind (of_offers (.pure b))
  rwa [List.append_nil, List.append_nil] at h

theorem output (w : Bytes) : Leaves (Command.output w) true [w] [] := by
  intro c hc
  have happly : (Command.output w).run c =
      ((c.out.write w).1, { c with out := (c.out.write w).2 }) := rfl
  rw [happly]
  simp [Sink.write, Sink.adding, Console.adding, hc]

theorem outputText (w : Bytes) : Leaves (Command.outputText w) () [w] [] :=
  of_offers (.outputText w)

theorem outputTexts (ws : List Bytes) : Leaves (Command.outputTexts ws) () ws [] :=
  of_offers (.outputTexts ws)

theorem outputDump (n : Node) : Leaves (Command.outputDump n) true (n.outline.lines 0) [] := by
  intro c hc
  rw [run_outputDump, Node.dump, Outline.dump_eq 0 _ hc]
  rfl

theorem remark (w : Bytes) : Leaves (Command.remark w) () [] [w] := of_offers (.remark w)

theorem logDiagnostics (heading : Bytes) (ds : List Diagnostic) :
    Leaves (Command.logDiagnostics heading ds) () [] (ds.map (Diagnostic.logLine heading)) :=
  of_offers (.logDiagnostics heading ds)

theorem report {x : Session Nat} {code : Nat} (h : Leaves x code out err) :
    x.report none = { code, stdout := out.flatten, stderr := err.flatten } := by
  have hrun := h { out := .ofLimit none, err := [] } rfl
  rw [Session.report, hrun]
  simp [Console.adding, Sink.adding, Sink.bytes, Sink.writes, Sink.ofLimit]

end Leaves

/-! ## The evaluating command -/

namespace Evaluate

/-- What is shown of a program before it is run: its tokens and its dump, as far as they are asked
for. -/
def preview (options : Options) (source : Bytes) (p : Program) : List Bytes :=
  (if options.tokens then (lex source).tokens.map tokenLine else []) ++
    if options.ast then (p.node.dump (.ofLimit none)).2.writes else []

/-- An accepted source is shown and then run. -/
theorem leaves_evaluateSource_of_ok (options : Options) {source : Bytes} {p : Program} {code : Nat}
    {out err : List Bytes} (h : compile source = .ok p)
    (hrun : Leaves (runProgram options p) code out err) :
    Leaves (evaluateSource options source) code (preview options source p ++ out)
      (logLines options (lex source).diagnostics ++ err) := by
  rw [compile] at h
  rw [evaluateSource, h]
  have hrest : Leaves
      (if options.ast then do
        let accepted ← Command.outputDump p.node
        if accepted then runProgram options p else stop .refused
      else runProgram options p)
      code ((if options.ast then (p.node.dump (.ofLimit none)).2.writes else []) ++ out) err := by
    split
    · rw [p.node.writes_dump]
      exact (Leaves.outputDump p.node).bind hrun
    · exact hrun
  rw [preview, List.append_assoc]
  refine (Leaves.of_offers (offers_log options _)).bind ?_
  dsimp only
  split
  · exact (Leaves.outputTexts _).bind hrest
  · exact hrest

/-! ### Reports -/

/-- The diagnostics of a source and then those of the run of its program. -/
def diagnostics (source : Bytes) (p : Program) : List Diagnostic :=
  (lex source).diagnostics ++ p.run.state.warnings.map Warning.diagnostic

/-- What the command is to report about a source. Each diagnostic, token and result is a line of
its own, and so is the message of an error. -/
inductive Reports (options : Options) (source : Bytes) : Report → Prop
  | rejected {e : SyntaxError} :
    compile source = .error e →
      IsLine ("Error: " ++ e.compileMessage ++ "\n") →
      (∀ d ∈ (lex source).diagnostics, IsLine (d.logLine heading)) →
        Reports options source
          { code := 1
            stdout := "Error: " ++ e.compileMessage ++ "\n"
            stderr := (logLines options (lex source).diagnostics).flatten ++
              (Stop.remarks (.notProgram e)).flatten }
  | failed {p : Program} {f : Failure} :
    compile source = .ok p → p.run.failure = some f →
      IsLine ("Error: evaluate: " ++ f.message ++ "\n") →
      (∀ t ∈ (lex source).tokens, IsLine (tokenLine t)) →
      (∀ d ∈ diagnostics source p, IsLine (d.logLine heading)) →
        Reports options source
          { code := 1
            stdout := (preview options source p).flatten ++
              ("Error: evaluate: " ++ f.message ++ "\n")
            stderr := (logLines options (diagnostics source p)).flatten ++
              (Stop.remarks (.failed f)).flatten }
  | finished {p : Program} :
    compile source = .ok p → p.run.failure = none →
      (∀ t ∈ (lex source).tokens, IsLine (tokenLine t)) →
      (∀ v ∈ p.run.state.prints, IsLine (resultLine v)) →
      (∀ d ∈ diagnostics source p, IsLine (d.logLine heading)) →
        Reports options source
          { code := 0
            stdout := (preview options source p).flatten ++
              (p.run.state.prints.map resultLine).flatten
            stderr := (logLines options (diagnostics source p)).flatten }

theorem logLines_append (options : Options) (ds ds' : List Diagnostic) :
    logLines options (ds ++ ds') = logLines options ds ++ logLines options ds' := by
  unfold logLines
  split
  · rfl
  · exact List.map_append

theorem isLine_tokenLine (t : Token) : IsLine (tokenLine t) :=
  isLine_append_newline.mpr t.unbroken_text

theorem isLine_resultLine (v : Value) : IsLine (resultLine v) :=
  isLine_append_newline.mpr (by simp)

private theorem isLine_of_mem_lexed {source : Bytes} {d : Diagnostic}
    (h : d ∈ (lex source).diagnostics) : IsLine (d.logLine heading) :=
  Lexical.isLine_of_mem_diagnostics h (by decide)

theorem isLine_of_mem_diagnostics {source : Bytes} {p : Program} (h : compile source = .ok p)
    {d : Diagnostic} (hd : d ∈ diagnostics source p) : IsLine (d.logLine heading) := by
  rcases List.mem_append.mp hd with hd | hd
  · exact isLine_of_mem_lexed hd
  · obtain ⟨w, hw, rfl⟩ := List.mem_map.mp hd
    exact Program.isLine_of_mem_warnings h hw (by decide)

/-- The command reports what it is to report about the source that it reads. -/
theorem reports_evaluateSource (options : Options) (source : Bytes) :
    Reports options source ((evaluateSource options source).report none) := by
  cases h : compile source with
  | error e =>
    have hline : IsLine ("Error: " ++ e.compileMessage ++ "\n") :=
      isLine_append_newline.mpr (by simp)
    have hreport := (Leaves.of_offers (offers_evaluateSource_of_error options h)).report
    rw [List.flatten_append, List.flatten_singleton] at hreport
    rw [hreport]
    exact .rejected h hline fun d => isLine_of_mem_lexed
  | ok p =>
    have htokens : ∀ t ∈ (lex source).tokens, IsLine (tokenLine t) := fun t _ => isLine_tokenLine t
    cases hfailure : p.run.failure with
    | none =>
      have hreport := (leaves_evaluateSource_of_ok options h
        (.of_offers (offers_runProgram_of_success options hfailure))).report
      rw [← logLines_append, List.flatten_append] at hreport
      rw [hreport]
      exact .finished h hfailure htokens (fun v _ => isLine_resultLine v)
        fun d => isLine_of_mem_diagnostics h
    | some f =>
      have hline : IsLine ("Error: evaluate: " ++ f.message ++ "\n") := by
        have hmessage := ((Program.inline_run h).2 f hfailure).unbroken_message
        exact isLine_append_newline.mpr (by simp [hmessage])
      have hreport := (leaves_evaluateSource_of_ok options h
        (.of_offers (offers_runProgram_of_failure options hfailure))).report
      rw [← List.append_assoc, ← logLines_append, List.flatten_append, List.flatten_append,
        List.flatten_singleton] at hreport
      rw [hreport]
      exact .failed h hfailure hline htokens fun d => isLine_of_mem_diagnostics h

end Evaluate

/-! ## The inspecting command -/

namespace Inspect

/-- What is shown of a program before it is run. -/
def outline (p : Program) : List Bytes := encode "AST\n" :: (p.decls.map declLine ++ [encode "\n"])

/-- What is shown behind the results: the returned value and the variables. -/
def ending (s : State) : List Bytes :=
  exitLines s.exit ++
    encode "\n" :: encode "Environment\n" :: s.store.bindings.map bindingLine

end Inspect

/-! ## Both commands -/

namespace Evaluate

variable {options : Options} {source : Bytes} {r : Report}

theorem Reports.code_eq_zero_iff (h : Reports options source r) :
    r.code = 0 ↔ ∃ p, compile source = .ok p ∧ p.run.failure = none := by
  cases h with
  | rejected hcompile _ _ => simp [hcompile]
  | failed hcompile hfailure _ _ _ => simp [hcompile, hfailure]
  | finished hcompile hfailure _ _ _ => simp [hcompile, hfailure]

theorem run_eq {args : List Bytes} {path : Bytes} {files : FileTree}
    (hargs : request args = .evaluate options path)
    (hread : files.read (Path.absolute files.current path) = .ok source) :
    run args files none = (evaluateSource options source).report none := by
  rw [run, hargs, answer, hread]

end Evaluate

theorem Inspect.run_eq {path source : Bytes} {files : FileTree}
    (hread : files.read (Path.absolute files.current path) = .ok source) (more : List Bytes) :
    run (path :: more) files = (inspectSource source).report none := by
  rw [run, answer, hread]

end Command

end MiniC
