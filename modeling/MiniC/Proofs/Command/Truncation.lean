import MiniC.Proofs.Command.Report

/-!
# Limited output

The evaluating command ignores refused writes, except those of the dump. So limited
output holds the first writes of what is shown without a limit, and the exit code
is another one only if the dump is cut.
-/

namespace MiniC.Command

open Text

/-- A console whose output has the given limit, before anything is written. -/
def Console.ofLimit (limit : Option Nat) : Console := { out := .ofLimit limit, err := [] }

section Dump

variable {c : Console} {n : Node}

/-- A dump that the output has room for is accepted. -/
theorem run_outputDump_of_fits (h : ∀ k, c.out.room = some k → n.dumpLines.length ≤ k) :
    (outputDump n).run c = (true, c.offering n.dumpLines []) := by
  rw [run_outputDump, n.dump_eq_writeAll, Sink.writeAll_of_fits h]
  rfl

/-- A dump that the output has no room for is cut. -/
theorem run_outputDump_of_lt {k : Nat} (hc : c.out.room = some k) (h : k < n.dumpLines.length) :
    (outputDump n).run c = (false, c.offering (n.dumpLines.take (k + 1)) []) := by
  rw [run_outputDump, n.dump_eq_writeAll, Sink.writeAll_of_limited hc, decide_eq_false (by omega)]
  rfl

end Dump

namespace Evaluate

/-- The lines of the token list, if it is asked for. -/
def tokenLines (options : Options) (source : Bytes) : List Bytes :=
  if options.tokens then (lex source).tokens.map tokenLine else []

/-- Dump a program, if that is asked for, and run it unless the dump is cut. -/
def dumpAndRun (options : Options) (p : Program) : Session Nat :=
  if options.ast then do
    let accepted ← outputDump p.node
    if accepted then runProgram options p else stop .refused
  else runProgram options p

variable {options : Options} {source : Bytes} {p : Program}

/-- An accepted source is shown with its tokens, dumped and run. -/
theorem evaluateSource_eq (h : compile source = .ok p) :
    evaluateSource options source =
      (log options (lex source).diagnostics >>= fun _ =>
        outputTexts (tokenLines options source)) >>= fun _ => dumpAndRun options p := by
  rw [compile] at h
  rw [evaluateSource, h, bind_assoc]
  congr 1
  funext _
  unfold tokenLines
  cases options.tokens <;> rfl

/-- The lines of the dump, if it is asked for. -/
def dumpLines (options : Options) (p : Program) : List Bytes :=
  if options.ast then p.node.dumpLines else []

section DumpAndRun

variable {c : Console}

/-- A program whose dump is not cut is run. -/
theorem run_dumpAndRun_of_fits {code : Nat} {out err : List Bytes}
    (hrun : Offers (runProgram options p) code out err)
    (h : ∀ k, c.out.room = some k → (dumpLines options p).length ≤ k) :
    (dumpAndRun options p).run c = (code, c.offering (dumpLines options p ++ out) err) := by
  unfold dumpLines at h ⊢
  unfold dumpAndRun
  cases hast : options.ast with
  | false => exact hrun c
  | true =>
    rw [hast] at h
    rw [if_pos rfl, if_pos rfl, Session.run_bind (run_outputDump_of_fits h), if_pos rfl, hrun,
      Console.offering_offering, List.nil_append]

/-- A program whose dump is cut is not run. -/
theorem run_dumpAndRun_of_lt {k : Nat} (hast : options.ast = true) (hc : c.out.room = some k)
    (h : k < p.node.dumpLines.length) :
    (dumpAndRun options p).run c =
      (1, c.offering (p.node.dumpLines.take (k + 1) ++ [Stop.line .refused])
        (Stop.remarks .refused)) := by
  unfold dumpAndRun
  rw [if_pos hast, Session.run_bind (run_outputDump_of_lt hc h), if_neg Bool.false_ne_true,
    offers_stop, Console.offering_offering, List.nil_append]

end DumpAndRun

/-- What is shown of an accepted source before its program is dumped. -/
theorem run_evaluateSource (h : compile source = .ok p) (c : Console) :
    (evaluateSource options source).run c =
      (dumpAndRun options p).run
        (c.offering (tokenLines options source) (logLines options (lex source).diagnostics)) := by
  have hshown : Offers (log options (lex source).diagnostics >>= fun _ =>
      outputTexts (tokenLines options source)) () (tokenLines options source)
      (logLines options (lex source).diagnostics ++ []) :=
    (offers_log options _).bind (.outputTexts _)
  rw [List.append_nil] at hshown
  rw [evaluateSource_eq h, Session.run_bind (hshown c)]

theorem exists_offers_runProgram (options : Options) (p : Program) :
    ∃ code out err, Offers (runProgram options p) code out err := by
  cases h : p.run.failure with
  | none => exact ⟨_, _, _, offers_runProgram_of_success options h⟩
  | some f => exact ⟨_, _, _, offers_runProgram_of_failure options h⟩

/-- The dump of a source is cut by a limit: it is asked for, and there are not enough writes left
for it behind the token lines. -/
def Cuts (options : Options) (source : Bytes) (k : Nat) : Prop :=
  ∃ p, compile source = .ok p ∧ options.ast = true ∧
    k < (tokenLines options source).length + (p.node.preorder 0).length

/-- The dump of an accepted source is cut if there is no room for all of it. -/
theorem cuts_iff (h : compile source = .ok p) (k : Nat) :
    Cuts options source k ↔
      ¬ (dumpLines options p).length ≤ k - (tokenLines options source).length := by
  have hpos := p.node.length_dumpLines_pos
  have hiff : Cuts options source k ↔ options.ast = true ∧
      k < (tokenLines options source).length + p.node.dumpLines.length := by
    rw [Cuts, p.node.length_dumpLines]
    constructor
    · rintro ⟨q, hq, hcut⟩
      cases h.symm.trans hq
      exact hcut
    · exact fun hcut => ⟨p, h, hcut⟩
  rw [hiff, dumpLines]
  cases options.ast with
  | false => simp
  | true =>
    simp only [if_pos, true_and]
    omega

/-- A source whose dump is not cut by the limit of a console is shown as on every other one. -/
theorem run_evaluateSource_of_fits {code : Nat} {out err : List Bytes} (limit : Option Nat)
    (hcompile : compile source = .ok p) (hrun : Offers (runProgram options p) code out err)
    (h : ∀ k, limit = some k → ¬ Cuts options source k) :
    (evaluateSource options source).run (.ofLimit limit) =
      (code, (Console.ofLimit limit).offering
        (tokenLines options source ++ (dumpLines options p ++ out))
        (logLines options (lex source).diagnostics ++ err)) := by
  have hfits : ∀ j, ((Console.ofLimit limit).offering (tokenLines options source)
      (logLines options (lex source).diagnostics)).out.room = some j →
      (dumpLines options p).length ≤ j := by
    intro j hj
    rw [Console.offering, Sink.room_offerAll] at hj
    obtain ⟨k, hk, rfl⟩ := Option.map_eq_some_iff.mp hj
    exact not_not.mp (mt (cuts_iff hcompile k).mpr (h k hk))
  rw [run_evaluateSource hcompile, run_dumpAndRun_of_fits hrun hfits, Console.offering_offering]

/-- Behind a cut dump there is only the error. -/
theorem run_evaluateSource_of_cuts {k : Nat} (hcompile : compile source = .ok p)
    (h : Cuts options source k) :
    (evaluateSource options source).run (.ofLimit (some k)) =
      (1, (Console.ofLimit (some k)).offering
        (tokenLines options source ++
          ((dumpLines options p).take (k - (tokenLines options source).length + 1) ++
            [Stop.line .refused]))
        (logLines options (lex source).diagnostics ++ Stop.remarks .refused)) := by
  have hroom : ((Console.ofLimit (some k)).offering (tokenLines options source)
      (logLines options (lex source).diagnostics)).out.room =
        some (k - (tokenLines options source).length) :=
    Sink.room_offerAll _ _
  have hlt := (cuts_iff hcompile k).mp h
  obtain ⟨-, -, hast, -⟩ := h
  rw [dumpLines, if_pos hast] at hlt ⊢
  rw [run_evaluateSource hcompile, run_dumpAndRun_of_lt hast hroom (Nat.lt_of_not_le hlt),
    Console.offering_offering]

/-- A limit that falls within the dump reaches neither the error nor the results. -/
theorem take_cut_append {k : Nat} {ts ls : List Bytes} (h : k - ts.length ≤ ls.length)
    (error results : List Bytes) :
    (ts ++ (ls.take (k - ts.length + 1) ++ error)).take k = (ts ++ (ls ++ results)).take k := by
  have hcut : k - ts.length ≤ (ls.take (k - ts.length + 1)).length := by
    rw [List.length_take]
    omega
  rw [List.take_append, List.take_append_of_le_length hcut, List.take_take,
    Nat.min_eq_left (Nat.le_succ _), List.take_append, List.take_append_of_le_length h]

/-- Limited output is the first part of the output without a limit, and the code is another one only
where the dump is cut. -/
theorem truncates_evaluateSource (options : Options) (source : Bytes) (k : Nat) :
    let free := (evaluateSource options source).run (.ofLimit none)
    let limited := (evaluateSource options source).run (.ofLimit (some k))
    limited.2.out.writes = free.2.out.writes.take k ∧
      (Cuts options source k → limited.1 = 1) ∧
      (¬ Cuts options source k → limited.1 = free.1) := by
  intro free limited
  have hfree {code : Nat} {out err : List Bytes}
      (h : free = (code, (Console.ofLimit none).offering out err)) : free.2.out.writes = out := by
    rw [h]
    exact Sink.writes_offerAll_ofLimit_none out
  have hlimited {code : Nat} {out err : List Bytes}
      (h : limited = (code, (Console.ofLimit (some k)).offering out err)) :
      limited.2.out.writes = out.take k := by
    rw [h]
    exact Sink.writes_offerAll_ofLimit_some k out
  cases hcompile : compile source with
  | error e =>
    have hoffers := offers_evaluateSource_of_error options hcompile
    have hcuts : ¬ Cuts options source k := by
      rintro ⟨p, hp, -⟩
      cases hcompile.symm.trans hp
    rw [hfree (hoffers _), hlimited (hoffers _)]
    have hcode : limited.1 = free.1 := by
      rw [show limited = _ from hoffers _, show free = _ from hoffers _]
    exact ⟨rfl, fun h => absurd h hcuts, fun _ => hcode⟩
  | ok p =>
    obtain ⟨code, out, err, hrun⟩ := exists_offers_runProgram options p
    have hwhole : free = _ := run_evaluateSource_of_fits none hcompile hrun nofun
    by_cases hcuts : Cuts options source k
    · have hcut : limited = _ := run_evaluateSource_of_cuts hcompile hcuts
      have hle : k - (tokenLines options source).length ≤ (dumpLines options p).length :=
        Nat.le_of_not_le ((cuts_iff hcompile k).mp hcuts)
      refine ⟨?_, fun _ => congrArg Prod.fst hcut, fun h => absurd hcuts h⟩
      rw [hfree hwhole, hlimited hcut]
      exact take_cut_append hle _ _
    · have hpart : limited = _ := run_evaluateSource_of_fits (some k) hcompile hrun
        fun j hj => Option.some.inj hj ▸ hcuts
      rw [hfree hwhole, hlimited hpart]
      have hcode : limited.1 = free.1 := by rw [hpart, hwhole]
      exact ⟨rfl, fun h => absurd h hcuts, fun _ => hcode⟩

/-- The accepted writes of a call of the command. -/
def writes (args : List Bytes) (files : FileTree) (limit : Option Nat) : List Bytes :=
  ((answer files.current files.read (request args)).run (.ofLimit limit)).2.out.writes

end Evaluate

/-- A dump writes the lines of the nodes that are reached through children, in order. To a sink with
a limit it writes the first ones of them, tries one further write if there are more, and tells. The
evaluating command shows the first writes of what it shows without a limit, and ends with code 1 if
the limit cuts the dump of a program and with the same code otherwise. -/
theorem output_truncated (k : Nat) :
    (∀ n : Node,
      let nodes := n.preorder 0
      let whole := n.dump (.ofLimit none)
      let limited := n.dump (.ofLimit (some k))
      whole.2.writes = nodes.map (fun m => Node.dumpLine m.1 m.2) ∧ whole.1 = true ∧
        limited.2.writes = whole.2.writes.take (min k nodes.length) ∧
        limited.2.refused = (if k < nodes.length then 1 else 0) ∧
        (limited.1 = false ↔ k < nodes.length)) ∧
      ∀ (args : List Bytes) (files : FileTree) (options : Options) (path source : Bytes),
        Evaluate.request args = .evaluate options path →
        files.read (Path.absolute files.current path) = .ok source →
          (∀ limit, (Evaluate.run args files limit).stdout =
            (Evaluate.writes args files limit).flatten) ∧
          Evaluate.writes args files (some k) = (Evaluate.writes args files none).take k ∧
          (Evaluate.Cuts options source k → (Evaluate.run args files (some k)).code = 1) ∧
          (¬ Evaluate.Cuts options source k →
            (Evaluate.run args files (some k)).code = (Evaluate.run args files none).code) := by
  refine ⟨?_, ?_⟩
  · intro n nodes whole limited
    have hwhole : whole = (true, (Sink.ofLimit none).offerAll n.dumpLines) :=
      (n.dump_eq_writeAll _).trans (Sink.writeAll_of_free rfl _)
    have hwrites : whole.2.writes = n.dumpLines := by
      rw [hwhole, Sink.writes_offerAll_ofLimit_none]
    obtain ⟨hlimited, hrefused, hanswer⟩ := n.dump_of_limited k
    rw [n.length_dumpLines] at hrefused hanswer
    refine ⟨hwrites, by rw [hwhole], ?_, hrefused, hanswer⟩
    rw [hwrites, ← n.length_dumpLines, ← List.take_eq_take_min]
    exact hlimited
  · intro args files options path source hargs hread
    have hanswer : Evaluate.answer files.current files.read (Evaluate.request args) =
        Evaluate.evaluateSource options source := by
      rw [hargs, Evaluate.answer, hread]
    refine ⟨fun limit => rfl, ?_⟩
    have htruncates := Evaluate.truncates_evaluateSource options source k
    rw [← hanswer] at htruncates
    exact htruncates

/-- An empty source with its token list: the line of the end of the input is the first write and the
dump is the second. One write cuts the dump, and two do not. -/
theorem output_truncated_empty :
    let files : FileTree := .ofFiles "/home" [("a.c", [])]
    let args : List Bytes := ["-tokens", "a.c"]
    Evaluate.request args = .evaluate { tokens := true } "a.c" ∧
      files.read (Path.absolute files.current "a.c") = .ok [] ∧
      Evaluate.writes args files (some 1) = (Evaluate.writes args files none).take 1 ∧
      (Evaluate.run args files (some 1)).code = 1 ∧
      (Evaluate.run args files (some 2)).code = (Evaluate.run args files none).code ∧
      (Evaluate.run args files none).code = 0 := by
  intro files args
  have hrequest : Evaluate.request args = .evaluate { tokens := true } "a.c" := by decide
  have hread : files.read (Path.absolute files.current "a.c") = .ok [] := by decide
  have hcuts (k : Nat) : Evaluate.Cuts { tokens := true } [] k ↔ k < 2 := by
    have hnodes : ((Program.mk []).node.preorder 0).length = 1 := by
      rw [Node.preorder_eq]
      rfl
    simp [Evaluate.Cuts, compile_nil, Evaluate.tokenLines, lex_nil, hnodes]
  have hcode : (Evaluate.run args files none).code = 0 := by
    rw [Evaluate.run_eq hrequest hread]
    exact (Evaluate.reports_evaluateSource _ _).code_eq_zero_iff.mpr ⟨⟨[]⟩, compile_nil, rfl⟩
  obtain ⟨-, hwrites, hcut, -⟩ := (output_truncated 1).2 _ _ _ _ _ hrequest hread
  obtain ⟨-, -, -, huncut⟩ := (output_truncated 2).2 _ _ _ _ _ hrequest hread
  exact ⟨hrequest, hread, hwrites, hcut ((hcuts 1).mpr (by decide)),
    huncut (mt (hcuts 2).mp (by decide)), hcode⟩

end MiniC.Command
