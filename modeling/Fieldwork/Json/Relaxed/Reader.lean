import Fieldwork.Json.Relaxed.Token

/-!
# Reading Relaxed JSON

From a relaxed JSON text to its tree.

The tokens of a text are put together by a machine that takes one at a time
and keeps the open arrays and objects on a stack. The grammar is that of JSON
but for two rules: the last item of an array and the last member of an object
may have a comma behind it, and a key may be a name. The tree is spelled the
strict way, so its text is strict JSON.

Reading takes fuel. Every token has a character, so the length of the text and
one more is enough.

## Main definitions

* `RelaxedState`, `RelaxedState.step`: The machine.
* `Written.readRelaxed?`: The tree of a whole text.
-/

namespace Fieldwork

/-- What the next token may be. -/
inductive RelaxedPhase where
  /-- A value. -/
  | value
  /-- A value or the end of the array. -/
  | item
  /-- A key or the end of the object. -/
  | member
  /-- A colon. -/
  | colon
  /-- A complete value; what it belongs to goes on or ends. -/
  | after (tree : Written)
  deriving Inhabited

/-- The machine between two tokens. -/
structure RelaxedState where
  /-- The open arrays and objects, innermost first. -/
  stack : List Written.Frame
  /-- What the innermost one waits for. -/
  phase : RelaxedPhase
  deriving Inhabited

namespace RelaxedState

/-- The state before the first token. -/
def initial : RelaxedState :=
  ⟨[], .value⟩

/-- The first token of a value. -/
def openValue (stack : List Written.Frame) : RelaxedToken → Option RelaxedState
  | .scalar tree => some ⟨stack, .after tree⟩
  | .mark '[' => some ⟨.items [] :: stack, .item⟩
  | .mark '{' => some ⟨.members [] :: stack, .member⟩
  | _ => none

/-- One token. -/
def step (s : RelaxedState) (token : RelaxedToken) : Option RelaxedState :=
  match s.phase with
  | .value => openValue s.stack token
  | .item =>
    match s.stack, token with
    -- Whether a comma came last or nothing at all, the array is complete.
    | .items done :: outer, .mark ']' => some ⟨outer, .after (.array done.reverse)⟩
    | stack, token => openValue stack token
  | .member =>
    match s.stack, token with
    | .members done :: outer, .mark '}' => some ⟨outer, .after (.object done.reverse)⟩
    | .members done :: outer, .scalar (.string body) => some ⟨.value done body :: outer, .colon⟩
    | .members done :: outer, .name body => some ⟨.value done body :: outer, .colon⟩
    | _, _ => none
  | .colon =>
    match token with
    | .mark ':' => some ⟨s.stack, .value⟩
    | _ => none
  | .after tree =>
    match s.stack, token with
    | .items done :: outer, .mark ',' => some ⟨.items (tree :: done) :: outer, .item⟩
    | .items done :: outer, .mark ']' => some ⟨outer, .after (.array (tree :: done).reverse)⟩
    | .value done key :: outer, .mark ',' => some ⟨.members ((key, tree) :: done) :: outer, .member⟩
    | .value done key :: outer, .mark '}' =>
      some ⟨outer, .after (.object ((key, tree) :: done).reverse)⟩
    | _, _ => none

/-- The value that is complete when the text ends here. -/
def finish? (s : RelaxedState) : Option Written :=
  match s.stack, s.phase with
  | [], .after tree => some tree
  | _, _ => none

/-- The tokens of a text in turn. -/
def run? (fuel : Nat) (s : RelaxedState) (cs : List Char) : Option Written :=
  match fuel with
  | 0 => none
  | fuel + 1 =>
    (RelaxedToken.gap? .blanks cs).bind fun cs =>
      if cs.isEmpty then s.finish?
      else
        (RelaxedToken.token? cs).bind fun (token, rest) =>
          (s.step token).bind fun s => s.run? fuel rest

end RelaxedState

/-- The tree of a whole text, if it is one relaxed value with blanks and
    comments around. -/
def Written.readRelaxed? (cs : List Char) : Option Written :=
  RelaxedState.initial.run? (cs.length + 1) cs

end Fieldwork
