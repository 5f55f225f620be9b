import MiniC.Command.Evaluate
import MiniC.Proofs.Tree.Dump

/-!
# What sessions offer

Most sessions do not look at whether their writes are accepted: on every console
they give the same answer, offer the same texts to the output and make the same
remarks. Only a dump looks, and stops at the first refused write.
-/

namespace MiniC.Command

open Text

/-- A console to which texts were offered on its two channels; the second one takes them all. -/
def Console.offering (c : Console) (out err : List Bytes) : Console :=
  { out := c.out.offerAll out, err := err.reverse ++ c.err }

theorem Console.offering_offering (c : Console) (out err out' err' : List Bytes) :
    (c.offering out err).offering out' err' = c.offering (out ++ out') (err ++ err') := by
  simp [Console.offering, Sink.offerAll_append]

variable {α β : Type}

/-- A session goes on from the answer and the console of its first part. -/
theorem Session.run_bind {x : Session α} {a : α} {c d : Console} (h : x.run c = (a, d))
    (following : α → Session β) : (x >>= following).run c = (following a).run d := by
  have happly : (x >>= following).run c = (following (x.run c).1).run (x.run c).2 := rfl
  rw [happly, h]

theorem run_outputDump (n : Node) (c : Console) :
    (outputDump n).run c = ((n.dump c.out).1, { c with out := (n.dump c.out).2 }) := rfl

/-- On every console, a session answers and offers the given texts on the two channels. -/
def Offers (x : Session α) (a : α) (out err : List Bytes) : Prop :=
  ∀ c : Console, x.run c = (a, c.offering out err)

namespace Offers

variable {x : Session α} {a : α} {out out' err err' : List Bytes}

theorem pure (a : α) : Offers (Pure.pure a) a [] [] := fun _ => rfl

theorem bind {following : α → Session β} {b : β} (hx : Offers x a out err)
    (hf : Offers (following a) b out' err') :
    Offers (x >>= following) b (out ++ out') (err ++ err') := by
  intro c
  rw [Session.run_bind (hx c), hf, Console.offering_offering]

/-- A session that ends with an answer of its own. -/
theorem answering (hx : Offers x a out err) (b : β) :
    Offers (x >>= fun _ => Pure.pure b) b out err := by
  have h : Offers (x >>= fun _ => Pure.pure b) b (out ++ []) (err ++ []) := hx.bind (.pure b)
  rwa [List.append_nil, List.append_nil] at h

/-- A write whose answer is not looked at. -/
theorem output_bind (w : Bytes) (hx : Offers x a out err) :
    Offers (Command.output w >>= fun _ => x) a (w :: out) err := by
  intro c
  have happly : (Command.output w >>= fun _ => x).run c = x.run (c.offering [w] []) := rfl
  rw [happly, hx, Console.offering_offering]
  rfl

theorem outputText (w : Bytes) : Offers (Command.outputText w) () [w] [] :=
  output_bind w (.pure ())

theorem outputTexts (ws : List Bytes) : Offers (Command.outputTexts ws) () ws [] := by
  induction ws with
  | nil => exact .pure ()
  | cons w ws ih => exact (outputText w).bind ih

theorem remark (w : Bytes) : Offers (Command.remark w) () [] [w] := fun _ => rfl

theorem logDiagnostics (heading : Bytes) (ds : List Diagnostic) :
    Offers (Command.logDiagnostics heading ds) () [] (ds.map (Diagnostic.logLine heading)) := by
  induction ds with
  | nil => exact .pure ()
  | cons d ds ih => exact (remark (d.logLine heading)).bind ih

theorem remarkLinks (links : List Link) :
    Offers (Command.remarkLinks links) () [] (links.map Link.line) := by
  induction links with
  | nil => exact .pure ()
  | cons l links ih => exact (remark l.line).bind ih

end Offers

/-- The remarks that show an error: its trace, and the source line that it quotes. -/
def Stop.remarks (s : Stop) : List Bytes :=
  encode "Trace (most recent wrap first):\n" :: (s.trace.map Link.line ++ s.quotation?.toList)

/-- The line that shows an error on the output. -/
def Stop.line (s : Stop) : Bytes := "Error: " ++ s.message ++ "\n"

theorem Offers.showStop (s : Stop) : Offers (Command.showStop s) () [s.line] s.remarks := by
  -- The output, the heading and the trace are common to errors with and without a quotation.
  have hshown {x : Session Unit} {err : List Bytes} (hx : Offers x () [] err) :
      Offers (do
        let _ ← Command.output s.line
        Command.remark "Trace (most recent wrap first):\n"
        Command.remarkLinks s.trace
        x) () [s.line]
        (encode "Trace (most recent wrap first):\n" :: (s.trace.map Link.line ++ err)) :=
    .output_bind s.line ((Offers.remark _).bind ((Offers.remarkLinks s.trace).bind hx))
  unfold Command.showStop Stop.remarks
  cases s.quotation? with
  | none => exact hshown (.pure ())
  | some line => exact hshown (.remark line)

/-! ## The evaluating command -/

namespace Evaluate

/-- The remarks about diagnostics, unless they are to be kept quiet. -/
def logLines (options : Options) (ds : List Diagnostic) : List Bytes :=
  if options.quiet then [] else ds.map (Diagnostic.logLine heading)

theorem offers_log (options : Options) (ds : List Diagnostic) :
    Offers (log options ds) () [] (logLines options ds) := by
  unfold log logLines
  split
  · exact .pure ()
  · exact .logDiagnostics heading ds

theorem offers_stop (s : Stop) : Offers (stop s) 1 [s.line] s.remarks :=
  (Offers.showStop s).answering 1

theorem offers_runProgram_of_failure (options : Options) {p : Program} {f : Failure}
    (h : p.run.failure = some f) :
    Offers (runProgram options p) 1 [Stop.line (.failed f)]
      (logLines options (p.run.state.warnings.map Warning.diagnostic) ++
        Stop.remarks (.failed f)) := by
  rw [runProgram, h]
  exact (offers_log options _).bind (offers_stop (.failed f))

theorem offers_runProgram_of_success (options : Options) {p : Program}
    (h : p.run.failure = none) :
    Offers (runProgram options p) 0 (p.run.state.prints.map resultLine)
      (logLines options (p.run.state.warnings.map Warning.diagnostic)) := by
  have hresults := (Offers.outputTexts (p.run.state.prints.map resultLine)).answering 0
  rw [runProgram, h, ← List.append_nil (logLines _ _)]
  exact (offers_log options _).bind hresults

theorem offers_evaluateSource_of_error (options : Options) {source : Bytes} {e : SyntaxError}
    (h : compile source = .error e) :
    Offers (evaluateSource options source) 1 [Stop.line (.notProgram e)]
      (logLines options (lex source).diagnostics ++ Stop.remarks (.notProgram e)) := by
  rw [compile] at h
  rw [evaluateSource, h]
  exact (offers_log options _).bind (offers_stop (.notProgram e))

end Evaluate

end MiniC.Command
