import ScriptLint.Proofs.Grammar.Steady
import ScriptLint.Proofs.Progress.Termination

/-!
# How parsers are composed

What a run does in between, such as the tokens it consumes or the statements it gives up on, cannot
be read off the session with which it ends. It can be read off the way in which the parser is
composed of its parts. That way is the same for two texts whose tokens are the same but for how they
are written, so that a composition relates the parser to itself, run on both texts.

- `Wording`, `Session.Rendering`: what depends on how the source is written.
- `Likeness`: which tokens are the same but for their wording, and what the grammar relies on about
  them.
- `Session.Quiet`: changes that neither look at how the source is written nor touch a decision.
- `Composition`: the ways in which parsers are composed. The indices are what is known about the
  current token before the parser and after it.
-/

namespace ScriptLint

open Parse Grammar

/-! ## Wordings -/

/-- How a token is written, and where. -/
structure Wording where
  raw : String
  offset : Nat

namespace Token

/-- The token with another wording. -/
def reworded (t : Token) (w : Wording) : Token :=
  { t with raw := w.raw, start := { t.start with offset := w.offset } }

/-- How the token is written. -/
def wording (t : Token) : Wording := ⟨t.raw, t.offset⟩

/-- A token in its own wording is the token. -/
theorem reworded_wording (t : Token) : t.reworded t.wording = t := rfl

/-- Whether the token makes the program branch: the words of the conditional statements and loops, a
case, and the operators that do not evaluate all their operands. -/
def decides (t : Token) : Bool :=
  match t.kind with
  | .keyword word => [Keyword.ifWord, .forWord, .whileWord, .caseWord].contains word
  | .punctuator p => [Punctuator.and, .or, .question].contains p
  | _ => false

variable {t : Token}

/-- Three punctuators decide something. -/
theorem decides_of_isPunctuator {p : Punctuator} (h : t.isPunctuator p) :
    t.decides = [Punctuator.and, .or, .question].contains p := by
  unfold isPunctuator at h
  unfold decides
  split at h
  · rename_i hKind
    rw [hKind, of_decide_eq_true h]
  · cases h

/-- Four words decide something. -/
theorem decides_of_isKeyword {word : Keyword} (h : t.isKeyword word) :
    t.decides = [Keyword.ifWord, .forWord, .whileWord, .caseWord].contains word := by
  unfold isKeyword at h
  unfold decides
  split at h
  · rename_i hKind
    rw [hKind, of_decide_eq_true h]
  · cases h

/-- A name decides nothing. -/
theorem decides_of_identifier {name : String} (h : t.identifier? = some name) :
    t.decides = false := by
  unfold identifier? at h
  unfold decides
  split at h
  · rename_i hKind
    rw [hKind]
  · cases h

/-- Nor does the end of the source. -/
theorem decides_of_isEnd (h : t.isEnd) : t.decides = false := by
  unfold isEnd at h
  unfold decides
  split at h
  · rename_i hKind
    rw [hKind]
  · cases h

end Token

/-- Which tokens are the same but for their wording. -/
structure Likeness where
  Like : Token → Wording → Prop
  useStrict {t : Token} {w : Wording} : Like t w → isUseStrict (t.reworded w) = isUseStrict t
  number {t : Token} {w : Wording} {literal : NumberLiteral} :
    Like t w → t.kind = .number literal → w.raw = t.raw
  offset {t u : Token} {w v : Wording} :
    Like t w → Like u v → (w.offset = v.offset ↔ t.offset = u.offset)

/-- Only the token itself is like the token. -/
def Likeness.same : Likeness where
  Like t w := w = t.wording
  useStrict h := by rw [h, Token.reworded_wording]
  number h _ := by rw [h, Token.wording]
  offset h h' := by rw [h, h', Token.wording, Token.wording]

namespace Session

/-- What depends on how the source is written, and what was reported. -/
structure Rendering where
  stream : TokenStream
  token : Wording
  previous : Wording
  consumed : Nat
  sourceLength : Nat
  journal : Journal

/-- How the source of the session is written. -/
def rendering (s : Session) : Rendering :=
  ⟨s.stream, s.token.wording, s.previous.wording, s.consumed, s.sourceLength, s.journal⟩

/-- The session on a source that is written differently. -/
def rendered (s : Session) (x : Rendering) : Session :=
  { s with
    stream := x.stream
    token := s.token.reworded x.token
    previous := s.previous.reworded x.previous
    consumed := x.consumed
    sourceLength := x.sourceLength
    journal := x.journal }

end Session

/-- The tokens at the current place are alike. -/
structure Likeness.Similar (L : Likeness) (s : Session) (x : Session.Rendering) : Prop where
  token : L.Like s.token x.token
  previous : L.Like s.previous x.previous

/-- Every session is similar to itself. -/
theorem Likeness.similar_same (s : Session) : Likeness.same.Similar s s.rendering := ⟨rfl, rfl⟩

/-! ## Quiet changes -/

/-- The complexities of the open functions, innermost first, and of the finished ones. -/
def Metrics.complexities (m : Metrics) : List Nat × List Nat :=
  (m.opened.toList.map (·.record.metrics.complexity), m.finished.map (·.metrics.complexity))

/-- How many blocks are open in each of the open functions, innermost first. -/
def Metrics.depths (m : Metrics) : List Nat := m.opened.toList.map (·.depth)

/-- A change that does not depend on how the source is written, stays in place, reports nothing,
counts no decision, opens or closes no block, and sets no option. -/
structure Session.Quiet (f : Session → Session) : Prop where
  rendered (s : Session) (x : Session.Rendering) : f (s.rendered x) = (f s).rendered x
  rendering (s : Session) : (f s).rendering = s.rendering
  kind (s : Session) : (f s).token = s.token
  previous (s : Session) : (f s).previous = s.previous := by exact fun _ => rfl
  complexities (s : Session) : (f s).metrics.complexities = s.metrics.complexities
  depths (s : Session) : (f s).metrics.depths = s.metrics.depths := by exact fun _ => rfl
  layers (s : Session) : (f s).layers = s.layers ∨ (f s).layers = s.layers.push := by
    exact fun _ => .inl rfl
  calm (s : Session) : s.scopes.Calm → (f s).scopes.Calm

/-- A change of what is neither token, place, journal, metrics nor scopes is quiet. -/
theorem Session.Quiet.of_surroundings {f : Session → Session}
    (rendered : ∀ s x, f (s.rendered x) = (f s).rendered x)
    (h : ∀ s : Session,
    ((f s).token, (f s).previous, (f s).rendering, (f s).metrics, (f s).scopes) =
      (s.token, s.previous, s.rendering, s.metrics, s.scopes))
    (layers : ∀ s : Session, (f s).layers = s.layers ∨
      (f s).layers = s.layers.push := by exact fun _ => .inl rfl) :
    Session.Quiet f := by
  have hAll (s : Session) := h s
  simp only [Prod.mk.injEq] at hAll
  exact {
    rendered
    rendering s := (hAll s).2.2.1
    kind s := (hAll s).1
    previous s := (hAll s).2.1
    complexities s := by rw [(hAll s).2.2.2.1]
    depths s := by rw [(hAll s).2.2.2.1]
    layers
    calm s hs := by rw [(hAll s).2.2.2.2]; exact hs }

/-- Leaves the innermost block. -/
def Session.leaveBlock (s : Session) : Session := { s with metrics := s.metrics.exitBlock }

/-- Runs a parser inside a block that opens at the token. -/
def Grammar.withBlock {α : Type} (opener : Token) (p : Parse α) : Parse α := do
  enterBlock opener
  p.ensuring Session.leaveBlock

/-! ## Findings of a composition -/

/-- The finding neither gives up on the statement nor is about the depth of a block. -/
def Finding.isPlain : Finding → Bool
  | nestedTooDeeply _ => false
  | f => !f.givesUp

/-- A remark does not give up on the statement. -/
theorem Finding.isPlain_of_isRemark {f : Finding} (h : f.isRemark) : f.isPlain := by
  cases f <;> first | rfl | cases h

namespace Grammar

/-! ## Compositions -/

/-- How a token is consumed: by its role in the grammar, or whatever it is. The latter are names of
properties and keys, and what is left of a statement that was given up on. -/
inductive TokenUse where
  | plain
  | any
deriving DecidableEq

/-- Nothing is known about the current token. -/
abbrev Anywhere {α : Type} : α → Token → Prop := fun _ _ => True

/-- What is known about the current token after a round. -/
def AfterRound {α : Type} (I Q : α → Token → Prop) : Round α → Token → Prop
  | .again a => I a
  | .done a => Q a

/-- The ways in which parsers are composed. The second parser is the first one, run on a source that
is written differently. -/
inductive Composition (L : Likeness) :
    {α : Type} → (Token → Prop) → Parse α → Parse α → (α → Token → Prop) → Type 1
  | weaken {α : Type} {T T' : Token → Prop} {p p' : Parse α} {Q Q' : α → Token → Prop}
      (hT : ∀ t, T' t → T t) (c : Composition L T p p' Q) (hQ : ∀ a t, Q a t → Q' a t) :
      Composition L T' p p' Q'
  | pure {α : Type} {T : Token → Prop} {Q : α → Token → Prop} (a : α) (h : ∀ t, T t → Q a t) :
      Composition L T (pure a) (pure a) Q
  | bind {α β : Type} {T : Token → Prop} {Q : α → Token → Prop} {R : β → Token → Prop}
    {p p' : Parse α}
      {f f' : α → Parse β} (c : Composition L T p p' Q)
        (d : ∀ a, Composition L (Q a) (f a) (f' a) R) :
      Composition L T (p >>= f) (p' >>= f') R
  /-- Three parsers in a row, the first two of which belong together. -/
  | assoc {α β γ : Type} {T : Token → Prop} {Q : γ → Token → Prop} {p p' : Parse α}
    {f f' : α → Parse β}
      {g g' : β → Parse γ}
        (c : Composition L T (p >>= fun a => f a >>= g) (p' >>= fun a => f' a >>= g') Q) :
      Composition L T ((p >>= f) >>= g) ((p' >>= f') >>= g') Q
  | read {α : Type} {T : Token → Prop} {Q : α → Token → Prop} {f f' : Session → Parse α}
      (c : ∀ s x, L.Similar s x →
        Composition L (fun t => t = s.token ∧ T t) (f s) (f' (s.rendered x)) Q) :
      Composition L T (get >>= f) (get >>= f') Q
  | ite {α : Type} {T : Token → Prop} {Q : α → Token → Prop} {p p' q q' : Parse α} (c : Prop)
    [Decidable c]
      (hp : c → Composition L T p p' Q) (hq : ¬c → Composition L T q q' Q) :
      Composition L T (if c then p else q) (if c then p' else q') Q
  /-- Looks at a token further on. -/
  | peek {α : Type} {T : Token → Prop} (n : Nat) (g : Option Token → α)
      (h : ∀ t w, L.Like t w → g (some (t.reworded w)) = g (some t)) :
      Composition L T (do return g (← Parse.peek n)) (do return g (← Parse.peek n)) fun _ => T
  | startsArrow {T : Token → Prop} : Composition L T Parse.startsArrow Parse.startsArrow fun _ => T
  | allowRegex {T : Token → Prop} : Composition L T Parse.allowRegex Parse.allowRegex fun _ => T
  | change {T : Token → Prop} (f : Session → Session) (h : Session.Quiet f) :
      Composition L T (modify f) (modify f) fun _ => T
  /-- Reports a finding that does not give up on the statement. -/
  | warn {T : Token → Prop} {f f' : Finding} (line column : Nat) (hCode : f'.code = f.code)
      (hPhase : f'.phase = f.phase) (h : f.isPlain) :
      Composition L T (warnAt f line column) (warnAt f' line column) fun _ => T
  /-- Reports a rejected option. -/
  | reject {T : Token → Prop} (problem : Setting.Problem) (line column : Nat) :
      Composition L T (reportProblem problem line column)
        (reportProblem problem line column) fun _ => T
  /-- Reports a finding and gives up on the statement. -/
  | fail {α : Type} {T : Token → Prop} {Q : α → Token → Prop} {f f' : Finding} {t t' : Token}
      (hCode : f'.code = f.code) (hPhase : f'.phase = f.phase) (h : f.givesUp)
      (hPlace : (t'.line, t'.column) = (t.line, t.column)) :
      Composition L T (failAt f t : Parse α) (failAt f' t') Q
  /-- What would come after it does not matter. -/
  | failBefore {α β : Type} {T : Token → Prop} {Q : β → Token → Prop} {f f' : Finding}
    {t t' : Token}
      {k k' : α → Parse β} (c : Composition L T (failAt f t : Parse α) (failAt f' t') Anywhere) :
      Composition L T (failAt f t >>= k) (failAt f' t' >>= k') Q
  /-- Reports what the scopes found. -/
  | flush {T : Token → Prop} : Composition L T flushScopes flushScopes fun _ => T
  | tooDeep {α : Type} {T : Token → Prop} {Q : α → Token → Prop} :
      Composition L T (tooDeep : Parse α) tooDeep Q
  /-- Consumes a token. One that is consumed by its role decides nothing. -/
  | advance {T : Token → Prop} (use : TokenUse) (h : use = .plain → ∀ t, T t → t.decides = false) :
      Composition L T Parse.advance Parse.advance Anywhere
  /-- Consumes a token that decides something, and counts the decision. -/
  | decide {α : Type} {T : Token → Prop} {Q : α → Token → Prop} {p p' : Parse α}
      (h : ∀ t, T t → t.decides) (c : Composition L (fun _ => True) p p' Q) :
      Composition L T (do Parse.advance; modifyMetrics Metrics.addBranch; p)
        (do Parse.advance; modifyMetrics Metrics.addBranch; p') Q
  /-- A loop whose deciding token stands behind its body. -/
  | decideLater {α : Type} {T : Token → Prop} {Q : α → Token → Prop} {p p' : Parse Unit}
    {q q' : Parse α}
      (word : Keyword) (h : ∀ t, T t → t.decides = false)
        (hWord : ∀ t : Token, t.isKeyword word → t.decides)
      (c : Composition L (fun _ => True) p p' Anywhere) (d : Composition L (fun _ => True) q q' Q) :
      Composition L T (do Parse.advance; modifyMetrics Metrics.addBranch; p; expectWord word; q)
        (do Parse.advance; modifyMetrics Metrics.addBranch; p'; expectWord word; q') Q
  /-- A block, which is reported if it is too deep, and left whatever became of its statements. -/
  | insideBlock {α β : Type} {T : Token → Prop} {Q : α → Token → Prop} {R : β → Token → Prop}
    {p p' : Parse α}
      {f f' : α → Parse β} (opener : Token) (w : Wording)
        (h : ∀ t, T t → t = opener ∧ t.isPunctuator .leftBrace)
      (c : Composition L (fun _ => True) p p' Q) (d : ∀ a, Composition L (Q a) (f a) (f' a) R) :
      Composition L T
        (do Parse.advance; let a ← withBlock opener p; f a)
        (do Parse.advance; let a ← withBlock (opener.reworded w) p'; f' a) R
  /-- A statement of a list, which goes on behind a statement that was given up on. -/
  | entry {T : Token → Prop} {p p' : Parse Flow} {first : Token} {w : Wording} (h : L.Like first w)
      (c : Composition L T p p' Anywhere)
      (d : ∀ moved, Composition L (fun _ => True) (loop skipToken moved)
        (loop skipToken moved) Anywhere) :
      Composition L T (recover p do resync first.offset; return .normal)
        (recover p' do resync w.offset; return .normal) Anywhere
  | loop {α : Type} {I Q : α → Token → Prop} {f : α → Parse (Round α)} (a : α)
    (h : ∀ a, RoundConsumes (f a))
      (c : ∀ a, Composition L (I a) (f a) (f a) (AfterRound I Q)) :
      Composition L (I a) (Parse.loop f a) (Parse.loop f a) Q
  /-- A parser that contains itself, but does not reach the innermost one. -/
  | recursive {α : Type} {T : Token → Prop} {Q : α → Token → Prop} {form : Parse α → Parse α}
      (h : ∀ s : Session, s.Aligned → ∀ n, s.budget ≤ n →
        form^[n] tooDeep s = Parse.recursive form s)
      (c : ∀ n, Composition L T (form^[n] tooDeep) (form^[n] tooDeep) Q) :
      Composition L T (Parse.recursive form) (Parse.recursive form) Q
  | ensuring {α : Type} {T : Token → Prop} {Q : α → Token → Prop} {p p' : Parse α}
      (after : Session → Session) (h : Session.Quiet after) (c : Composition L T p p' Q) :
      Composition L T (p.ensuring after) (p'.ensuring after) Q
  | insideFunction {α : Type} {T : Token → Prop} {p p' : Parse α} (kind : FunctionKind)
    (name : Option String)
      (line column : Nat) (c : Composition L T p p' Anywhere) :
      Composition L T (Grammar.insideFunction kind name line column p)
        (Grammar.insideFunction kind name line column p') Anywhere

/-- A parser that does not depend on how the source is written. -/
abbrev Composed (L : Likeness) {α : Type} (T : Token → Prop) (p : Parse α) : Type 1 :=
  Composition L T p p Anywhere

end Grammar

end ScriptLint
