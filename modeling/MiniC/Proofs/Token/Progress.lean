import MiniC.Proofs.Token.Account

/-!
# Reading a source token by token

A call for the next token passes over blanks and comments and stops behind one
token, behind a character that means nothing, or at the end of the source.
Repeating the call until the end gives all tokens and all reports. Here the
passes of a call and the calls are counted, so that they can be cut off. Each of
them leaves less of the source, so one more of them than there are characters is
always enough.
-/

namespace MiniC.Lexical

open Element

/-- What one call for the next token gives. -/
structure Scan where
  /-- The token, unless a character was skipped. -/
  token? : Option Token
  /-- What is left of the source. -/
  rest : List Char
  /-- The line on which the rest starts. -/
  line : Nat
  /-- What is reported. -/
  diagnostics : List Diagnostic

/-- A call that stops behind an element. -/
def Scan.behind (line : Nat) (e : Element) (rest : List Char) : Scan where
  token? := e.token? line
  rest := rest
  line := line + e.text.count '\n'
  diagnostics := reports line e.flaw?

/-- A call that passed over something first. -/
def Scan.after (ds : List Diagnostic) (s : Scan) : Scan :=
  { s with diagnostics := ds ++ s.diagnostics }

/-- Elements that a call passes over. -/
def passedOver : Element → Bool
  | .blank _ => true
  | .remark _ => true
  | .comment _ _ => true
  | _ => false

/-- Look for the next token, in at most a given number of passes. -/
def nextToken : Nat → Nat → List Char → Option Scan
  | 0, _, _ => none
  | _ + 1, line, [] =>
    some { token? := some (endToken line), rest := [], line, diagnostics := [] }
  | passes + 1, line, c :: rest =>
    let (element, rest) := first c rest
    if passedOver element then
      (nextToken passes (line + element.text.count '\n') rest).map
        (Scan.after (reports line element.flaw?))
    else some (Scan.behind line element rest)

/-- What was read, with tokens and reports in front. -/
def prepend (ts : List Token) (ds : List Diagnostic) (l : Lexed) : Lexed :=
  { tokens := ts ++ l.tokens, diagnostics := ds ++ l.diagnostics }

/-- Call for tokens up to the end, at most a given number of times. -/
def tokensWithin : Nat → Nat → List Char → Option Lexed
  | 0, _, _ => none
  | calls + 1, line, cs =>
    match nextToken (calls + 1) line cs with
    | none => none
    | some s =>
      if s.token?.any (·.kind = .eof) then
        some { tokens := s.token?.toList, diagnostics := s.diagnostics }
      else (tokensWithin calls s.line s.rest).map (prepend s.token?.toList s.diagnostics)

/-- What is read from a source that starts on a line. -/
def lexedFrom (line : Nat) (cs : List Char) : Lexed where
  tokens := tokensFrom line (split cs) ++ [endToken (line + cs.count '\n' : Nat)]
  diagnostics := reportsFrom line (split cs)

theorem lexedFrom_cons (line : Nat) (c : Char) (rest : List Char) :
    lexedFrom line (c :: rest) =
      prepend ((first c rest).1.token? line).toList (reports line (first c rest).1.flaw?)
        (lexedFrom (line + (first c rest).1.text.count '\n') (first c rest).2) := by
  have hcount : (c :: rest).count '\n' =
      (first c rest).1.text.count '\n' + (first c rest).2.count '\n' := by
    rw [← List.count_append, text_first_append]
  simp only [lexedFrom, prepend, split, tokensFrom_cons, reportsFrom_cons, hcount,
    List.append_assoc, Nat.add_assoc]

theorem token?_of_passedOver {e : Element} (h : passedOver e = true) (line : Int) :
    e.token? line = none := by
  cases e <;> first | rfl | cases h

theorem kind_of_token? {e : Element} {line : Int} {t : Token} (h : e.token? line = some t) :
    t.kind ≠ .eof := by
  cases e with
  | word text =>
    cases h
    simp only [wordKind]
    split
    · simp
    split
    · simp
    · simp
  | number whole fraction => cases h; simp
  | quotation body closed => cases h; simp
  | operator c equals => cases h; simp
  | punct c => cases h; simp
  | blank c => cases h
  | remark text => cases h
  | comment body closed => cases h
  | unknown c => cases h

/-- A call in front of some characters, as a part of reading them all. -/
structure Scan.Serves (s : Scan) (line : Nat) (cs : List Char) : Prop where
  /-- What is left is the end of what there was, and if there was anything, it is less. -/
  rest : ∃ used, cs = used ++ s.rest ∧ (cs ≠ [] → used ≠ [])
  /-- At the end there is only the end token. -/
  nil : cs = [] → s.token? = some (endToken line)
  /-- The end token is the last one. -/
  last : s.token?.any (·.kind = .eof) = true → s.rest = [] ∧
    lexedFrom line cs = { tokens := s.token?.toList, diagnostics := s.diagnostics }
  /-- Otherwise the rest of the source remains to be read. -/
  more : s.token?.any (·.kind = .eof) = false →
    lexedFrom line cs = prepend s.token?.toList s.diagnostics (lexedFrom s.line s.rest)

/-- A call that stops behind the first element. -/
theorem Scan.Serves.behind (line : Nat) (c : Char) (rest : List Char) :
    (Scan.behind line (first c rest).1 (first c rest).2).Serves line (c :: rest) := by
  have heof : ((first c rest).1.token? line).any (·.kind = .eof) = false := by
    cases htoken : (first c rest).1.token? line with
    | none => rfl
    | some t => simpa using kind_of_token? htoken
  exact
    { rest := ⟨_, (text_first_append c rest).symm, fun _ => text_first_ne_nil c rest⟩
      nil := nofun
      last := fun h => absurd h (Bool.eq_false_iff.mp heof)
      more := fun _ => lexedFrom_cons line c rest }

/-- A call behind something that is passed over. -/
theorem Scan.Serves.after {s : Scan} {line : Nat} {c : Char} {rest : List Char}
    (h : s.Serves (line + (first c rest).1.text.count '\n') (first c rest).2)
    (hpassed : passedOver (first c rest).1 = true) :
    (s.after (reports line (first c rest).1.flaw?)).Serves line (c :: rest) where
  rest := by
    obtain ⟨used, hused, -⟩ := h.rest
    refine ⟨(first c rest).1.text ++ used, ?_, fun _ => ?_⟩
    · rw [List.append_assoc]
      exact (text_first_append c rest).symm.trans (congrArg _ hused)
    · exact List.append_ne_nil_of_left_ne_nil (text_first_ne_nil c rest) used
  nil := nofun
  last heof := by
    obtain ⟨hrest, hlexed⟩ := h.last heof
    refine ⟨hrest, ?_⟩
    rw [lexedFrom_cons, token?_of_passedOver hpassed, hlexed]
    rfl
  more heof := by
    rw [lexedFrom_cons, token?_of_passedOver hpassed, h.more heof]
    simp [prepend, Scan.after]

/-- A call for the next token has an answer, which it gives in at most one pass more than there are
characters. -/
theorem exists_scan (line : Nat) (cs : List Char) :
    ∃ s : Scan, (∀ passes, cs.length < passes → nextToken passes line cs = some s) ∧
      s.Serves line cs := by
  induction cs using split.induct generalizing line with
  | case1 =>
    refine ⟨⟨some (endToken line), [], line, []⟩, fun passes hpasses => ?_, ?_⟩
    · cases passes with
      | zero => cases hpasses
      | succ passes => rfl
    · exact
        { rest := ⟨[], rfl, fun h => absurd rfl h⟩
          nil := fun _ => rfl
          last := fun _ => ⟨rfl, by simp [lexedFrom, split, located]⟩
          more := nofun }
  | case2 c rest ih =>
    cases hpassed : passedOver (first c rest).1 with
    | true =>
      obtain ⟨s, hnext, hserves⟩ := ih (line + (first c rest).1.text.count '\n')
      refine ⟨s.after (reports line (first c rest).1.flaw?), fun passes hpasses => ?_,
        hserves.after hpassed⟩
      cases passes with
      | zero => cases hpasses
      | succ passes =>
        have hshort := length_first_lt c rest
        simp only [nextToken, hpassed, if_true]
        rw [hnext passes (by omega)]
        rfl
    | false =>
      refine ⟨.behind line (first c rest).1 (first c rest).2, fun passes hpasses => ?_,
        .behind line c rest⟩
      cases passes with
      | zero => cases hpasses
      | succ passes => simp [nextToken, hpassed]

/-- Calling for tokens ends after at most one call more than there are characters, with all that is
read from the source. -/
theorem tokensWithin_eq_some {calls line : Nat} {cs : List Char} (h : cs.length < calls) :
    tokensWithin calls line cs = some (lexedFrom line cs) := by
  induction calls generalizing line cs with
  | zero => cases h
  | succ calls ih =>
    obtain ⟨s, hnext, hserves⟩ := exists_scan line cs
    simp only [tokensWithin, hnext (calls + 1) h]
    split
    case isTrue heof => rw [(hserves.last heof).2]
    case isFalse heof =>
      rw [Bool.not_eq_true] at heof
      have hne : cs ≠ [] := by
        intro hnil
        rw [hserves.nil hnil] at heof
        cases heof
      obtain ⟨used, hused, hread⟩ := hserves.rest
      have hlength : cs.length = used.length + s.rest.length := by
        rw [← List.length_append, ← hused]
      have hpos := List.length_pos_iff.mpr (hread hne)
      rw [ih (by omega), hserves.more heof, Option.map_some]

/-- A call for the next token moves the position in a source: forward unless it is at the end, and
not past the end. The end token is returned there and nowhere else. -/
structure Scan.Advances (s : Scan) (cs : List Char) (pos pos' : Nat) : Prop where
  rest : s.rest = cs.drop pos'
  lt : pos < cs.length → pos < pos'
  le_length : pos' ≤ cs.length
  last : ∀ t ∈ s.token?, t.kind = .eof → pos' = cs.length
  atEnd : pos = cs.length → ∃ t ∈ s.token?, t.kind = .eof

/-- From every position a call for the next token comes back, and moves the position forward. -/
theorem nextToken_advances {cs : List Char} {pos : Nat} (line : Nat) (hpos : pos ≤ cs.length) :
    ∃ s : Scan, (∀ passes, cs.length - pos < passes →
      nextToken passes line (cs.drop pos) = some s) ∧ ∃ pos', s.Advances cs pos pos' := by
  obtain ⟨s, hnext, hserves⟩ := exists_scan line (cs.drop pos)
  rw [List.length_drop] at hnext
  obtain ⟨used, hused, hread⟩ := hserves.rest
  have hlength : cs.length - pos = used.length + s.rest.length := by
    rw [← List.length_append, ← hused, List.length_drop]
  refine ⟨s, hnext, pos + used.length, ?_, fun hlt => ?_, by omega, fun t ht heof => ?_, ?_⟩
  · rw [← List.drop_drop, hused, List.drop_left]
  · have hne : cs.drop pos ≠ [] := by simpa using hlt
    have := List.length_pos_iff.mpr (hread hne)
    omega
  · have hany : s.token?.any (·.kind = .eof) = true := by
      rw [Option.mem_def.mp ht]
      simpa using heof
    rw [(hserves.last hany).1, List.length_nil] at hlength
    omega
  · rintro rfl
    exact ⟨endToken line, hserves.nil (by simp), rfl⟩

end MiniC.Lexical
