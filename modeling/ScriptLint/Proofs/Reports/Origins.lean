import ScriptLint.Proofs.Balance
import ScriptLint.Proofs.Log.Runs

/-!
# Where the diagnostics of a report come from

Whatever a report shows is a finding, a rejected option or a lexing error, also if the run was
stopped. Its code is one of a few, and its message is a fixed text around what it quotes.

- `Finding.quoted`, `Setting.Problem.quoted`, `LexProblem.quoted`: the texts that messages quote.
- `Diagnostic.Issued`: the diagnostic comes from there.
- `issuing`: the grammar adds no other diagnostics.
- `issued_of_mem_lint`: a report has no others.
- `Diagnostic.Issued.quotes`: a message has a line feed if it quotes one, and only then.
-/

namespace ScriptLint

open Parse Grammar

/-! ## What messages quote -/

/-- The names, tokens and values that the message quotes. -/
def Finding.quoted : Finding → List String
  | alreadyDeclared text | constantAssigned text | unmatched text | unexpected
    text | expectedIdentifier text
  | usedBeforeDefined text | alreadyDefined text | unexpectedUse text | functionAssigned text
  | unnecessaryDirective text | outOfScope text | notAConstructor text | avoidArguments
    text | notAFunction text
  | dotNotation text | redefinition text | initUndefined text | notALabel text | unused
    text | deprecated text
  | notCamelCase text | notDefined text | definedInOuterScope text => [text]
  | expectedToken text other | unreachable text other | useStrictCompare text other
  | expectedInstead text other => [text, other]
  | _ => []

/-- The name or value that the message quotes. -/
def Setting.Problem.quoted : Setting.Problem → List String
  | unknownOption text | badInteger text => [text]
  | badValue _ | validThisInGlobal => []

/-- The piece of the source that the message quotes. -/
def LexProblem.quoted : LexProblem → List String
  | badNumber raw => [raw]
  | strayCharacter c => [toString c]
  | _ => []

/-- The diagnostic is about a finding, a rejected option or a lexing error, and its message quotes
the texts. -/
inductive Diagnostic.Issued : Diagnostic → List String → Prop
  | finding (f : Finding) (line column : Nat) : Issued (f.diagnostic line column) f.quoted
  | option (problem : Setting.Problem) (line column : Nat) :
    Issued ⟨line, column, problem.code, problem.message, .configuration⟩ problem.quoted
  | lexing (problem : LexProblem) (line column : Nat) :
    Issued ⟨line, column, problem.code, problem.message, .lexical⟩ problem.quoted

/-! ## Line feeds -/

/-- The message has a line feed if one of the texts has, and only then. -/
def Quotes (message : String) (texts : List String) : Prop :=
  '\n' ∈ message.toList ↔ ∃ text ∈ texts, '\n' ∈ text.toList

namespace Quotes

variable {message other : String} {texts others : List String} {before between after : List Char}

/-- A fixed text is given by its characters, so that a look at them decides. -/
theorem fixed (h : before.contains '\n' = false) : Quotes (String.ofList before) [] := by
  simpa [Quotes] using h

/-- A number quotes nothing. -/
theorem number (n : Nat) : Quotes (toString n) [] := by
  have hDigits : '\n' ∉ Nat.toDigits 10 n := fun h =>
    absurd (Nat.isDigit_of_mem_toDigits (by decide) (by decide) h) (by decide)
  show '\n' ∈ (Nat.repr n).toList ↔ _
  rw [Nat.toList_repr]
  simpa using hDigits

/-- A text quotes itself. -/
theorem text (text : String) : Quotes text [text] := by
  simp [Quotes]

/-- Two messages quote what each does. -/
theorem append (h : Quotes message texts) (h' : Quotes other others) :
    Quotes (message ++ other) (texts ++ others) := by
  unfold Quotes at *
  rw [String.toList_append, List.mem_append, h, h']
  simp only [List.mem_append, or_and_right, exists_or]

/-- Fixed words around a message quote nothing, if they have no line feed. -/
theorem around (h : Quotes message texts) (h₁ : before.contains '\n' = false)
    (h₂ : after.contains '\n' = false) :
    Quotes (String.ofList before ++ message ++ String.ofList after) texts := by
  have hAll := ((fixed h₁).append h).append (fixed h₂)
  rwa [List.nil_append, List.append_nil] at hAll

/-- Two texts with fixed ones before, between and after them. -/
theorem pair (text other : String) (h₁ : before.contains '\n' = false)
    (h₂ : between.contains '\n' = false) (h₃ : after.contains '\n' = false) :
    Quotes (String.ofList before ++ text ++ String.ofList between ++ other ++ String.ofList after)
      [text, other] :=
  (((Quotes.text text).around h₁ h₂).append (Quotes.text other)).append (fixed h₃)

end Quotes

/-- By the form of the message: two texts, one or a number stand in it, or nothing. -/
theorem Finding.quotes (f : Finding) : Quotes f.message f.quoted := by
  cases f with
  | expectedToken | unreachable | useStrictCompare | expectedInstead => exact .pair _ _ rfl rfl rfl
  | alreadyDeclared | constantAssigned | unmatched | unexpected | expectedIdentifier |
    usedBeforeDefined
  | alreadyDefined | unexpectedUse | functionAssigned | unnecessaryDirective | outOfScope |
    notAConstructor
  | avoidArguments | dotNotation | redefinition | initUndefined | notALabel | unused | deprecated |
    notCamelCase
  | notDefined | definedInOuterScope => exact (Quotes.text _).around rfl rfl
  | notAFunction => exact (Quotes.text _).append (.fixed rfl)
  | unrecoverable | stopping | tooManyStatements | tooManyParameters | nestedTooDeeply |
    tooComplex =>
    exact (Quotes.number _).around rfl rfl
  | unfilteredForIn => exact (Quotes.fixed rfl).append (.fixed rfl)
  | _ => exact .fixed rfl

/-- A refused setting quotes its name or its value, if anything. -/
theorem Setting.Problem.quotes (problem : Setting.Problem) :
    Quotes problem.message problem.quoted := by
  cases problem with
  | unknownOption | badInteger => exact (Quotes.text _).around rfl rfl
  | _ => exact .fixed rfl

/-- An error of the lexer quotes what it stopped at. -/
theorem LexProblem.quotes (problem : LexProblem) : Quotes problem.message problem.quoted := by
  cases problem with
  | badNumber | strayCharacter => exact (Quotes.text _).around rfl rfl
  | _ => exact .fixed rfl

/-- The codes are letters and digits. -/
theorem isAlphanum_of_mem_fixed {code : List Char} (h : code.all Char.isAlphanum = true) :
    ∀ c ∈ (String.ofList code).toList, c.isAlphanum := by
  simpa using h

namespace Diagnostic

variable {d : Diagnostic} {texts : List String}

/-- What was issued quotes the texts it was issued with. -/
theorem Issued.quotes (h : d.Issued texts) : Quotes d.message texts := by
  cases h with
  | finding f line column => exact f.quotes
  | option problem line column => exact problem.quotes
  | lexing problem line column => exact problem.quotes

/-- Codes are letters and digits. -/
theorem Issued.isAlphanum_of_mem_code (h : d.Issued texts) : ∀ c ∈ d.code.toList, c.isAlphanum := by
  cases h with
  | finding f line column => cases f <;> exact isAlphanum_of_mem_fixed rfl
  | option problem line column => cases problem <;> exact isAlphanum_of_mem_fixed rfl
  | lexing problem line column => cases problem <;> exact isAlphanum_of_mem_fixed rfl

/-- Every ordinary diagnostic is issued. -/
theorem Ordinary.issued (h : d.Ordinary) : ∃ texts, d.Issued texts := by
  cases h with
  | finding line column h => exact ⟨_, .finding _ line column⟩
  | option problem line column => exact ⟨_, .option problem line column⟩
  | lexing problem line column => exact ⟨_, .lexing problem line column⟩

end Diagnostic

/-! ## Runs -/

/-- The journal keeps nothing else. -/
def Journal.Sourced (j : Journal) : Prop := ∀ d ∈ j.kept, ∃ texts, d.Issued texts

/-- The contract to report nothing else. -/
def issuing : Contract where
  Goes s t := s.journal.Sourced → t.journal.Sourced
  Stops s t := s.journal.Sourced → t.journal.Sourced
  refl _ := id
  trans h h' := h' ∘ h
  stop h h' := h' ∘ h

namespace Journal.Sourced

variable {j : Journal} {d : Diagnostic} {texts : List String}

/-- Recording keeps every diagnostic sourced. -/
theorem record (h : j.Sourced) (hd : d.Issued texts) : (j.record d).Sourced := by
  unfold Journal.record
  split
  · exact List.forall_mem_cons.mpr ⟨⟨texts, hd⟩, h⟩
  · exact h

/-- So does stopping. -/
theorem halt (h : j.Sourced) (hd : d.Issued texts) : (j.halt d).Sourced := by
  unfold Journal.halt
  split
  · exact h
  · exact List.forall_mem_cons.mpr ⟨⟨texts, hd⟩, h⟩

end Journal.Sourced

namespace Parse

variable {α : Type} {p : Parse α}

/-- What is emitted is issued. -/
theorem issuing_emit {d : Diagnostic} {texts : List String} (h : d.Issued texts) :
    issuing.Keeps (emit d) := by
  intro s
  unfold emit
  dsimp only
  split
  · exact fun hs => (Journal.Sourced.record hs h).halt (.finding _ _ _)
  · exact fun hs => Journal.Sourced.record hs h

theorem issuing_warnAt (f : Finding) (line column : Nat) : issuing.Keeps (warnAt f line column) :=
  issuing_emit (.finding f line column)

theorem issuing_flushScopes : issuing.Keeps flushScopes :=
  issuing.read fun _ => issuing.bind (issuing.modify fun _ => id) fun _ =>
    issuing.forM fun _ _ => issuing_warnAt _ _ _

theorem issuing_tooDeep : issuing.Keeps (tooDeep : Parse α) := fun _ hs => hs.halt (.finding _ _ _)

end Parse

theorem issuing_steps : issuing.Steppable where
  emit h := by
    obtain ⟨texts, hIssued⟩ := h.issued
    exact Parse.issuing_emit hIssued
  moved := by
    rintro s t ⟨_, _, _, _, _, _, _, rfl⟩
    exact id
  layers _ := id
  scopes _ := id
  ignores h hs d hd := hs d (h.kept d hd)
  flushScopes := Parse.issuing_flushScopes
  count _ := issuing.modify fun _ => id
  setHint _ := issuing.modify fun _ => id
  makeStrict := issuing.modify fun _ => id

namespace Grammar

variable {α : Type} {p : Parse α}

/-- A block issues its own findings and those of its body. -/
theorem issuing_insideBlock (opener : Token) (h : issuing.Keeps p) :
    issuing.Keeps (insideBlock opener p) := by
  have hEnter : issuing.Keeps (enterBlock opener) :=
    issuing.bind (issuing.modify fun _ => id) fun _ => issuing.read fun _ =>
      issuing.ite _ (issuing_warnAt _ _ _) (issuing.pure ())
  have hFrame : issuing.Keeps (withFrame .block p) := Ends.around h (fun _ _ => id) fun _ _ => id
  exact issuing.bind hEnter fun _ s => (hFrame s).ensuring (fun _ => id) fun _ => id

/-- So does a function. -/
theorem issuing_insideFunction (kind : FunctionKind) (name : Option String) (line column : Nat)
    (h : issuing.Keeps p) : issuing.Keeps (insideFunction kind name line column p) := by
  have hClose : issuing.Keeps (closeFunction line column) :=
    issuing.readAt fun _ => issuing.setAt id <|
      issuing.bind (issuing.forM fun _ _ => issuing_warnAt _ _ _) fun _ => issuing_flushScopes
  intro s
  have hClosed (t : Session) (ht : s.journal.Sourced → t.journal.Sourced) :
      Settles (issuing.Goes s) (issuing.Goes s) (closeFunction line column t) :=
    (hClose t).imp (fun _ hu => hu ∘ ht) fun _ hu => hu ∘ ht
  exact (h (withFunction s kind name line column)).insideFunction hClosed hClosed fun _ => id

/-- Reporting nothing else is respected by the grammar. -/
def sourced : Congruence where
  hides _ := False
  Rel p _ := issuing.Keeps p
  Parts p _ := issuing.Keeps p
  pure := issuing.pure
  bind := issuing.bind
  read h := issuing.read fun s => h s s (.refl _ s)
  warnAt f line column _ := issuing_warnAt f line column
  governs_ne := governs_ne_of_false
  quiet _ _ := False.elim
  loud _ _ := False.elim
  step := issuing_steps.step
  prologueRound := issuing.prologueRound (issuing_steps.peek 0)
  loop h := issuing.loop (fun _ => id) h
  recursive h := issuing.recursive (fun _ => id) fun p => h p p
  recover := issuing.recover
  clearingHint h s := (h s).ensuring (fun _ => id) fun _ => id
  withNoIn noIn h s := (h { s with noIn }).ensuring (fun _ => id) fun _ => id
  withFrame _ h := Ends.around h (fun _ _ => id) fun _ _ => id
  insideBlock := issuing_insideBlock
  insideLoop h := Ends.around h (fun _ _ => id) fun _ _ => id
  parts := id
  bindParts := issuing.bind
  partsBind := issuing.bind
  openOverlay hf s := hf () { s with
    layers := s.layers.push
    contexts := s.contexts.modifyTop fun c => { c with overlayOpen := true } }
  insideFunction := issuing_insideFunction

theorem issuing_deeper (h : issuing.Keeps p) : issuing.Keeps p.deeper :=
  issuing.read fun _ => issuing.ite _ (Ends.around h (fun _ _ => id) fun _ _ => id) issuing_tooDeep

/-- By induction on the levels. -/
theorem sourced_levels (n : Nat) : sourced.Nested (levels n) (levels n) := by
  induction n with
  | zero =>
    exact ⟨issuing_tooDeep, fun _ => issuing_tooDeep, fun _ => issuing_tooDeep, issuing_tooDeep⟩
  | succ n ih =>
    have hForms := ih.forms
    exact ⟨issuing_deeper hForms.statement, fun power => issuing_deeper (hForms.expression power),
      fun kind => issuing_deeper (hForms.binding kind), issuing_deeper hForms.construction⟩

end Grammar

/-- So does a program. -/
theorem Parse.issuing_program (problems : List Setting.Problem) :
    issuing.Keeps (program problems) := by
  refine issuing.bind (issuing_steps.reportProblems problems 0 0) fun _ => ?_
  refine issuing.bind issuing_steps.advance fun _ => ?_
  refine issuing.bind (Congruence.Nested.prologue (K := sourced)) fun _ => ?_
  exact sourced.discard ((sourced_levels maxNesting).statementList .program)

/-- A report shows nothing else, also if its run was stopped. -/
theorem issued_of_mem_lint {source : String} {options : Options}
    {globals : Option Predefined.Globals}
    {d : Diagnostic} (hd : d ∈ (lint source options globals).diagnostics) :
    ∃ texts, d.Issued texts := by
  rw [lint_diagnostics_eq, Journal.diagnostics, List.mem_reverse, final_eq] at hd
  have hProgram :=
    (Parse.issuing_program (Setting.Layers.ofOptions options).2
      (.start source options globals)).left
  obtain ⟨t, ht⟩ :
    ∃ t, left (program (Setting.Layers.ofOptions options).2 (.start source options globals)) = t :=
    ⟨_, rfl⟩
  rw [ht] at hProgram hd
  have hLast : issuing.Keeps (lastChecks t) :=
    issuing.bind (issuing_steps.checkLinesBefore _) fun _ => issuing_flushScopes
  have hFinish := (hLast { t with scopes := (t.scopes.finish t.layers).2 }).left
  rw [finish_eq] at hd
  exact hFinish (hProgram fun _ h => absurd h List.not_mem_nil) d hd

end ScriptLint
