import ScriptLint.Proofs.Composition.Program

/-!
# Telling what is submitted

What submits diagnostics without giving up on a statement is composed of few steps. Read off the way
in which it is composed, what it submits does not depend on what the journal keeps of it.

- `Telling`: the ways in which what submits diagnostics is composed; `Telling.said` lists them.
- `Diagnostic.IsPlain`: what is submitted neither gives up on a statement nor is about the depth of
  a block.
- `Parse.Mild.advance`: so it is when a token is consumed.
-/

namespace ScriptLint

open Parse Grammar

/-! ## What is submitted -/

/-- The codes of the errors that give up on a statement. -/
def syntaxErrors : List String := ["E019", "E021", "E030", "E031"]

/-- Whether the diagnostic is an error that gives up on a statement. -/
def Diagnostic.isSyntaxError (d : Diagnostic) : Bool := syntaxErrors.contains d.code

/-- The errors of the grammar are the findings that give up on a statement. -/
theorem Finding.isSyntaxError_diagnostic (f : Finding) (line column : Nat) :
    (f.diagnostic line column).isSyntaxError = f.givesUp := by
  cases f <;> rfl

/-- The diagnostic neither gives up on a statement nor is about the depth of a block. -/
structure Diagnostic.IsPlain (d : Diagnostic) : Prop where
  goesOn : d.isSyntaxError = false
  shallow : d.code ≠ "W073"

/-- An error that gives up on a statement is not about the depth of a block. -/
theorem Diagnostic.shallow_of_isSyntaxError {d : Diagnostic} (h : d.isSyntaxError) :
    d.code ≠ "W073" := by
  intro hCode
  rw [isSyntaxError, hCode] at h
  exact absurd h (by decide)

/-- A plain finding makes a plain diagnostic. -/
theorem Finding.isPlain_diagnostic {f : Finding} (h : f.isPlain) (line column : Nat) :
    (f.diagnostic line column).IsPlain := by
  cases f <;> first | exact ⟨rfl, ne_of_beq_false rfl⟩ | cases h

/-- So does a problem of an option. -/
theorem Setting.Problem.isPlain (p : Setting.Problem) (line column : Nat) :
    Diagnostic.IsPlain ⟨line, column, p.code, p.message, .configuration⟩ := by
  cases p <;> exact ⟨rfl, ne_of_beq_false rfl⟩

/-- So does an error of the lexer. -/
theorem LexProblem.isPlain (p : LexProblem) (line column : Nat) :
    Diagnostic.IsPlain ⟨line, column, p.code, p.message, .lexical⟩ := by
  cases p <;> exact ⟨rfl, ne_of_beq_false rfl⟩

/-- Nothing is reported, no branch of the program is counted, and no block is opened or closed. -/
structure Session.Unmarked (s t : Session) : Prop where
  kept : ∀ d ∈ t.journal.kept, d ∈ s.journal.kept
  metrics : (t.metrics.complexities, t.metrics.depths) = (s.metrics.complexities, s.metrics.depths)

/-- An unmarked session has the same complexities. -/
theorem Session.Unmarked.complexities {s t : Session} (h : s.Unmarked t) :
    t.metrics.complexities = s.metrics.complexities := congrArg Prod.fst h.metrics

/-- It has the same depths. -/
theorem Session.Unmarked.depths {s t : Session} (h : s.Unmarked t) :
    t.metrics.depths = s.metrics.depths :=
  congrArg Prod.snd h.metrics

/-- The ways in which a parser is composed as far as it submits diagnostics, all of which are as
described. -/
inductive Telling (P : Diagnostic → Prop) : {α : Type} → Parse α → Type 1
  /-- Nothing is submitted. -/
  | silent {α : Type} {p : Parse α} (h : ∀ s : Session, s.Unmarked (left (p s))) : Telling P p
  | emit (d : Diagnostic) (h : P d) : Telling P (emit d)
  | bind {α β : Type} {p : Parse α} {f : α → Parse β} (c : Telling P p) (d : ∀ a, Telling P (f a)) :
      Telling P (p >>= f)
  | read {α : Type} {f : Session → Parse α} (c : ∀ s, Telling P (f s)) : Telling P (get >>= f)
  | same {α : Type} {p q : Parse α} (c : Telling P q) (h : ∀ s, p s = q s) : Telling P p

namespace Telling

variable {P : Diagnostic → Prop} {α β : Type} {p : Parse α}

/-- What a run submits, in its order. -/
def said {α : Type} {p : Parse α} : Telling P p → Session → List Diagnostic
  | silent _, _ => []
  | emit d _, _ => [d]
  | @bind _ _ _ p _ c d, s =>
    c.said s ++ match p s with
      | .ok a t => (d a).said t
      | .error _ _ => []
  | read c, s => (c s).said s
  | same c _, s => c.said s

/-- What is said satisfies the condition. -/
theorem forall_said {α : Type} {p : Parse α} (c : Telling P p) (s : Session) :
    ∀ d ∈ c.said s, P d := by
  induction c generalizing s with
  | silent h => exact fun d hd => absurd hd List.not_mem_nil
  | emit d h => exact fun e he => List.mem_singleton.mp he ▸ h
  | @bind α β p f c d ihc ihd =>
    intro e he
    rw [said, List.mem_append] at he
    rcases he with hFirst | hLater
    · exact ihc s e hFirst
    · split at hLater
      · exact ihd _ _ e hLater
      · exact absurd hLater List.not_mem_nil
  | read c ih => exact ih s s
  | same c h ih => exact ih s

def pure (a : α) : Telling P (Pure.pure a : Parse α) := silent fun _ => ⟨fun _ => id, rfl⟩

def modify {f : Session → Session} (h : ∀ s : Session, s.Unmarked (f s)) :
    Telling P (modify f) := silent h

def ite (c : Prop) [Decidable c] {q : Parse α} (d : Telling P p) (e : Telling P q) :
    Telling P (if c then p else q) :=
  if h : c then .same d fun _ => by rw [if_pos h] else .same e fun _ => by rw [if_neg h]

/-- Only one of the branches says something before both go on. -/
def when (c : Prop) [Decidable c] {p : Parse Unit} {f : Unit → Parse α} (d : Telling P p)
    (e : ∀ u, Telling P (f u)) : Telling P (if c then p >>= f else f ()) := ite c (.bind d e) (e ())

/-- One after another. -/
def forM {f : β → Parse PUnit} : (l : List β) → (∀ b ∈ l, Telling P (f b)) → Telling P (l.forM f)
  | [], _ => pure ()
  | b :: rest, c =>
    .bind (c b List.mem_cons_self) fun _ => forM rest fun e he => c e (List.mem_cons_of_mem b he)

/-- The session is replaced by one that is made from it. -/
def replace {g : Session → Session} {f : Session → Parse α}
    (h : ∀ s : Session, s.Unmarked (g s)) (c : ∀ s, Telling P (f s)) :
    Telling P (do let s ← get; set (g s); f s) :=
  let d : Telling P ((do let s ← get; set (g s); return s : Parse Session) >>= f) :=
    .bind (silent h) c
  d

end Telling

namespace Parse

/-- What is submitted neither gives up on a statement nor is about the depth of a block. -/
abbrev Mild (p : Parse α) : Type 1 := Telling Diagnostic.IsPlain p

namespace Mild

variable {α : Type}

def warnAt (f : Finding) (line column : Nat) (h : f.isPlain) : Mild (warnAt f line column) :=
  .emit _ (Finding.isPlain_diagnostic h line column)

def warnUnless (s : Setting) (f : Finding) (line column : Nat) (h : f.isPlain) :
    Mild (warnUnless s f line column) :=
  .read fun _ => .ite _ (warnAt f line column h) (.pure ())

def checkQuote (quote : Char) (line column : Nat) : Mild (checkQuote quote line column) := by
  have notes : Mild (do let s ← get; set ({ s with firstQuote := some quote } : Session)) :=
    .silent fun _ => ⟨fun _ => id, rfl⟩
  refine .same (q := do
    let s ← get
    match s.layers.quotePolicy with
    | .off => pure ()
    | .single => if quote != '\x27' then Parse.warnAt .useSingleQuote line column
    | .double => if quote != '\x22' then Parse.warnAt .useDoubleQuote line column
    | .consistent =>
      match s.firstQuote with
      | none => do let s ← get; set { s with firstQuote := some quote }
      | some first =>
        if first != quote then
          Parse.warnAt .mixedQuotes line column) (.read fun s => ?_) fun s => ?_
  · split
    · exact .pure ()
    · exact .ite _ (warnAt _ _ _ rfl) (.pure ())
    · exact .ite _ (warnAt _ _ _ rfl) (.pure ())
    · split
      · exact notes
      · exact .ite _ (warnAt _ _ _ rfl) (.pure ())
  · rw [Parse.checkQuote, get_bind_apply, get_bind_apply]
    cases s.layers.quotePolicy with
    | consistent => cases s.firstQuote <;> rfl
    | _ => rfl

/-- The checks of a token are told apart by its kind. -/
def checkConsumed : Mild checkConsumed := by
  have byKind (s : Session) (line column : Nat) (kind : TokenKind) : Mild (match kind with
      | .string literal => do
        Parse.checkQuote literal.quote line column
        if literal.octal && s.context.strict then Parse.warnAt .strictOctal line column
        if literal.continued then Parse.warnUnless .multistr .multilineString line column
        if Text.isScriptUrl literal.value then Parse.warnUnless .scripturl .scriptUrl line column
      | .number literal =>
        if literal.legacyOctal && s.context.strict then
          Parse.warnAt .strictOctal line column else Pure.pure ()
      | _ => Pure.pure ()) := by
    split
    · refine .bind (checkQuote _ _ _) fun _ => .when _ (warnAt _ _ _ rfl) fun _ => ?_
      exact .when _ (warnUnless _ _ _ _ rfl) fun _ => .ite _ (warnUnless _ _ _ _ rfl) (.pure ())
    · exact .ite _ (warnAt _ _ _ rfl) (.pure ())
    · exact .pure ()
  exact .read fun s => byKind s s.token.line s.token.column s.token.kind

def warnLongLines (limit : Nat) :
    (line : Nat) → (lengths : List Nat) → Mild (warnLongLines limit line lengths)
  | _, [] => .pure ()
  | line, _ :: rest => .when _ (warnAt _ _ _ rfl) fun _ => warnLongLines limit (line + 1) rest

def limitLines (line : Nat) (lengths : List Nat) :
    (limit : Option Nat) → Mild (limitLines line lengths limit)
  | some limit => warnLongLines limit line lengths
  | none => .pure ()

def checkLinesBefore (line : Nat) : Mild (checkLinesBefore line) :=
  let checked (s : Session) := s.uncheckedLines.splitAt (line - 1 - s.checkedLines)
  let passed (s : Session) : Session :=
    { s with
      checkedLines := s.checkedLines + (checked s).1.length
      uncheckedLines := (checked s).2 }
  .same (q := do
    let s ← get
    set (passed s)
    Parse.limitLines (s.checkedLines + 1) (checked s).1 (s.layers.limit? .maxlen))
    (.replace (fun _ => ⟨fun _ => id, rfl⟩) fun _ => limitLines _ _ _) fun _ => rfl

def reportProblem (problem : Setting.Problem) (line column : Nat) :
    Mild (reportProblem problem line column) :=
  .emit _ (problem.isPlain line column)

/-- Whether the setting is accepted decides what comes next. -/
def applySetting (setting : Setting) (value : Setting.Value) (atGlobal : Bool) (line column : Nat) :
    Mild (applyEntry (.setOption setting value) atGlobal line column) := by
  have accepts : Mild (do
      let s ← get
      match s.layers.set setting value atGlobal with
      | .ok layers =>
        set { s with layers }
        return none
      | .error problem => return some problem : Parse (Option Setting.Problem)) := by
    refine .silent fun s => ?_
    rw [get_bind_apply]
    cases s.layers.set setting value atGlobal with
    | ok layers => exact ⟨fun _ => id, rfl⟩
    | error problem => exact ⟨fun _ => id, rfl⟩
  refine .same (.bind accepts fun problem? => (?_ : Mild (match problem? with
    | none => predefine setting value
    | some problem => Parse.reportProblem problem line column))) fun s => ?_
  · split
    · refine .ite _ ?_ (.pure ())
      split
      · exact .modify fun _ => ⟨fun _ => id, rfl⟩
      · exact .pure ()
    · exact reportProblem _ line column
  · cases hSet : s.layers.set setting value atGlobal with
    | ok layers =>
      rw [applyEntry_of_ok hSet, bind_of_ok (a := none) (t := { s with layers })]
      rw [get_bind_apply, hSet]
      rfl
    | error problem =>
      rw [applyEntry_of_error hSet, bind_of_ok (a := some problem) (t := s)]
      rw [get_bind_apply, hSet]
      rfl

def applyEntry (entry : Directive.Entry) (atGlobal : Bool) (line column : Nat) :
    Mild (applyEntry entry atGlobal line column) :=
  match entry with
  | .setOption setting value => applySetting setting value atGlobal line column
  | .ignoreCode _ => .modify fun _ => ⟨fun _ => id, rfl⟩
  | .ignore .start => .modify fun s => ⟨(Journal.Ignores.startRegion s.journal line).kept, rfl⟩
  | .ignore .stop => .modify fun s => ⟨(Journal.Ignores.endRegion s.journal line).kept, rfl⟩
  | .ignore .line => .modify fun s => ⟨(Journal.Ignores.ignoreLine s.journal line).kept, rfl⟩
  | .declareGlobal _ _ => .modify fun _ => ⟨fun _ => id, rfl⟩
  | .removeGlobal _ => .modify fun _ => ⟨fun _ => id, rfl⟩
  | .exportName _ => .modify fun _ => ⟨fun _ => id, rfl⟩

def note (result : Lexer.Result) : Mild (note result) := by
  have byKind (line column : Nat) (kind : TokenKind) : Mild (match kind with
      | .directive d => applyDirective d line column
      | _ => Pure.pure ()) := by
    split
    · refine .bind (.forM _ fun p _ => reportProblem p _ _) fun _ => .read fun _ => ?_
      exact .forM _ fun entry _ => applyEntry entry _ _ _
    · exact .pure ()
  unfold Parse.note
  split
  · next token => exact byKind token.line token.column token.kind
  · exact .emit _ (LexProblem.isPlain _ _ _)

def nextSignificant : Mild nextSignificant :=
  let pulled (s : Session) : Session := { s with stream := s.stream.pullSignificant.2 }
  .same (q := do
    let s ← get
    set (pulled s)
    s.stream.pullSignificant.1.forM Parse.note
    return (s.stream.pullSignificant.1.getLast?.bind Lexer.significant?).getD .origin)
    (.replace (fun _ => ⟨fun _ => id, rfl⟩) fun _ =>
    .bind (.forM _ fun result _ => note result) fun _ => .pure _) fun _ => rfl

/-- How consuming a token is composed. -/
def advance : Mild advance :=
  .bind checkConsumed fun _ => .bind (.modify fun _ => ⟨fun _ => id, rfl⟩) fun _ =>
    .bind nextSignificant fun next =>
    .bind (.modify fun _ => ⟨fun _ => id, rfl⟩) fun _ => checkLinesBefore next.line

end Mild

end Parse

end ScriptLint
