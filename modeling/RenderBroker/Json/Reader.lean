import RenderBroker.Json.Token

/-!
# Reading JSON tokens

A reader takes what it wants from the front of the token list and returns the rest. The first
problem in the order of the text is the answer, whatever else is wrong further on. A value that
nobody wants is skipped, at any depth.
-/

namespace RenderBroker.Json

abbrev Reader (α : Type) := List Token → Except Problem (α × List Token)

inductive Frame where
  | list
  | object
  deriving DecidableEq, Repr

/-- What may follow while a value is being skipped. -/
inductive Awaited where
  | value
  | firstItem
  | firstKey
  | key
  | colon
  | next
  deriving DecidableEq, Repr

/-- The verdict on a token as a whole value, if it is one. -/
def Token.verdict? : Token → Option (Except Problem Unit)
  | .word _ v => some v
  | .number _ v => some v
  | .string _ v => some v
  | _ => none

/-- Skips the rest of a value that lies in the given frames, the innermost first. -/
def skipFrom : List Frame → Awaited → List Token → Except Problem (List Token)
  | _, _, [] => .error .ended
  | frames, .value, t :: ts =>
    match t with
    | .openBracket => skipFrom (.list :: frames) .firstItem ts
    | .openBrace => skipFrom (.object :: frames) .firstKey ts
    | t =>
      match t.verdict? with
      | some (.ok ()) => if frames.isEmpty then .ok ts else skipFrom frames .next ts
      | some (.error p) => .error p
      | none => .error .malformed
  | frames, .firstItem, t :: ts =>
    match t with
    | .closeBracket =>
      if frames.tail.isEmpty then .ok ts else skipFrom frames.tail .next ts
    | .openBracket => skipFrom (.list :: frames) .firstItem ts
    | .openBrace => skipFrom (.object :: frames) .firstKey ts
    | t =>
      match t.verdict? with
      | some (.ok ()) => skipFrom frames .next ts
      | some (.error p) => .error p
      | none => .error .malformed
  | frames, .firstKey, t :: ts =>
    match t with
    | .closeBrace =>
      if frames.tail.isEmpty then .ok ts else skipFrom frames.tail .next ts
    | .string _ (.ok ()) => skipFrom frames .colon ts
    | .string _ (.error p) => .error p
    | _ => .error .malformed
  | frames, .key, t :: ts =>
    match t with
    | .string _ (.ok ()) => skipFrom frames .colon ts
    | .string _ (.error p) => .error p
    | _ => .error .malformed
  | frames, .colon, t :: ts =>
    match t with
    | .colon => skipFrom frames .value ts
    | _ => .error .malformed
  | frames, .next, t :: ts =>
    match t, frames with
    | .comma, .list :: _ => skipFrom frames .value ts
    | .comma, .object :: _ => skipFrom frames .key ts
    | .closeBracket, .list :: outer => if outer.isEmpty then .ok ts else skipFrom outer .next ts
    | .closeBrace, .object :: outer => if outer.isEmpty then .ok ts else skipFrom outer .next ts
    | _, _ => .error .malformed

def skip (ts : List Token) : Except Problem (List Token) :=
  skipFrom [] .value ts

theorem skipFrom_lt {frames : List Frame} {a : Awaited} {ts rest : List Token}
    (h : skipFrom frames a ts = .ok rest) : rest.length < ts.length := by
  induction ts generalizing frames a with
  | nil => simp [skipFrom] at h
  | cons t ts ih =>
    have here {frames : List Frame} {a : Awaited} (h : skipFrom frames a ts = .ok rest) :
        rest.length < (t :: ts).length := by
      have := ih h
      simp only [List.length_cons]; omega
    have done (h : Except.ok (ε := Problem) ts = .ok rest) : rest.length < (t :: ts).length := by
      simp only [Except.ok.injEq] at h
      simp [h]
    cases a <;> simp only [skipFrom] at h <;> repeat' split at h
    all_goals first
      | exact here h
      | exact done h
      | simp at h

theorem skip_lt {ts rest : List Token} (h : skip ts = .ok rest) : rest.length < ts.length :=
  skipFrom_lt h

/-- The problem of a value of another kind than the wanted one, found at its first token. -/
def Token.unwanted : Token → Problem
  | .word _ (.error p) => p
  | .number (.error p) _ => p
  | .string (.error p) _ => p
  | .word _ (.ok ()) | .number (.ok _) _ | .string (.ok _) _ => .mismatch
  | .openBracket | .openBrace => .mismatch
  | .closeBracket | .closeBrace | .colon | .comma | .stray _ => .malformed

def Token.text : Token → Except Problem (List Char)
  | .string strict _ => strict
  | t => .error t.unwanted

def readString : Reader String
  | [] => .error .ended
  | t :: ts => t.text.map fun s => (String.ofList s, ts)

def readNatural (max : Nat) : Reader Nat
  | [] => .error .ended
  | .number (.ok n) _ :: ts =>
    match n.natural? with
    | some value => if value ≤ max then .ok (value, ts) else .error .mismatch
    | none => .error .mismatch
  | t :: _ => .error t.unwanted

def readNull : Reader Unit
  | [] => .error .ended
  | .word .null (.ok ()) :: ts => .ok ((), ts)
  | t :: _ => .error t.unwanted

def expect (isIt : Token → Bool) (ts : List Token) : Except Problem (List Token) :=
  match ts with
  | [] => .error .ended
  | t :: ts => if isIt t then .ok ts else .error .malformed

def Token.isColon : Token → Bool
  | .colon => true
  | _ => false

def Token.isCloseBrace : Token → Bool
  | .closeBrace => true
  | _ => false

/-- Reads the strings behind the first one of a list, up to its end. -/
def readMoreStrings : Reader (List String)
  | [] => .error .ended
  | .closeBracket :: ts => .ok ([], ts)
  | .comma :: [] => .error .ended
  | .comma :: .closeBracket :: _ => .error .malformed
  | .comma :: t :: ts => do
    let s ← t.text
    let (more, rest) ← readMoreStrings ts
    return (String.ofList s :: more, rest)
  | _ => .error .malformed

def readStrings : Reader (List String)
  | [] => .error .ended
  | .openBracket :: [] => .error .ended
  | .openBracket :: .closeBracket :: ts => .ok ([], ts)
  | .openBracket :: t :: ts => do
    let s ← t.text
    let (more, rest) ← readMoreStrings ts
    return (String.ofList s :: more, rest)
  | t :: _ => .error t.unwanted

/-- The tokens that start with the next item of a list, or nothing where the list ends. -/
def nextItem? (first : Bool) : List Token → Except Problem (Option (List Token))
  | [] => .error .ended
  | .closeBracket :: _ => .ok none
  | .comma :: ts =>
    if first then .ok (some (.comma :: ts))
    else
      match ts with
      | [] => .error .ended
      | .closeBracket :: _ => .error .malformed
      | ts => .ok (some ts)
  | t :: ts => if first then .ok (some (t :: ts)) else .error .malformed

/-- The tokens behind a list of which no further item is wanted. -/
def endList (ts : List Token) : Except Problem (List Token) :=
  match ts with
  | [] => .error .ended
  | .closeBracket :: ts => .ok ts
  | _ => .error .malformed

/-- The members of an object in the order of the text: each has its key and the tokens that start
with its value, and the listing ends behind the object or with the first problem. -/
inductive Members where
  | done (rest : List Token)
  | problem (p : Problem)
  | member (key : List Char) (value : Except Problem (List Token)) (more : Members)

def nextKey? (first : Bool) : List Token → Except Problem (Option (List Char × List Token))
  | [] => .error .ended
  | .closeBrace :: _ => .ok none
  | .string strict _ :: ts => if first then strict.map fun k => some (k, ts) else .error .malformed
  | .comma :: ts =>
    if first then .error .malformed
    else
      match ts with
      | [] => .error .ended
      | .string strict _ :: ts => strict.map fun k => some (k, ts)
      | _ => .error .malformed
  | _ => .error .malformed

theorem nextKey?_lt {first : Bool} {ts rest : List Token} {k : List Char}
    (h : nextKey? first ts = .ok (some (k, rest))) : rest.length < ts.length := by
  have mapped {e : Except Problem (List Char)} {us : List Token}
      (h : (e.map fun k => some (k, us)) = .ok (some (k, rest))) : us = rest := by
    cases e with
    | error => simp [Except.map] at h
    | ok =>
      simp only [Except.map, Except.ok.injEq, Option.some.injEq, Prod.mk.injEq] at h
      exact h.2
  unfold nextKey? at h
  repeat' split at h
  all_goals first
    | (have hu := mapped h; subst hu; simp only [List.length_cons]; omega)
    | simp at h

theorem expect_lt {isIt : Token → Bool} {ts rest : List Token} (h : expect isIt ts = .ok rest) :
    rest.length < ts.length := by
  unfold expect at h
  repeat' split at h
  · simp at h
  · simp only [Except.ok.injEq] at h
    simp [h]
  · simp at h

/-- The members of the object whose first or next member starts here. -/
def members (first : Bool) (ts : List Token) : Members :=
  match hk : nextKey? first ts with
  | .error p => .problem p
  | .ok none =>
    match ts with
    | _ :: rest => .done rest
    | [] => .problem .ended
  | .ok (some (key, afterKey)) =>
    match hv : expect Token.isColon afterKey with
    | .error p => .member key (.error p) (.problem p)
    | .ok value =>
      match hs : skip value with
      | .error p => .member key (.ok value) (.problem p)
      | .ok rest =>
        have _ := nextKey?_lt hk
        have _ := expect_lt hv
        have _ := skip_lt hs
        .member key (.ok value) (members false rest)
termination_by ts.length
decreasing_by omega

/-- What a record makes of a member. -/
inductive MemberRole (δ : Type) where
  /-- Nobody wants it. -/
  | unknown
  | repeated
  /-- It is read into the record. -/
  | wanted (read : Reader δ)

/-- Reads the listed members into a record, one after the other. -/
def Members.read {δ : Type} (field : δ → String → MemberRole δ) (record : δ) :
    Members → Except Problem (δ × List Token)
  | .done rest => .ok (record, rest)
  | .problem p => .error p
  | .member key value more =>
    match field record (String.ofList key) with
    | .repeated => .error .mismatch
    | .unknown =>
      match value with
      | .error p => .error p
      | .ok _ => more.read field record
    | .wanted read =>
      match value with
      | .error p => .error p
      | .ok ts =>
        match read ts with
        | .error p => .error p
        | .ok (record, _) => more.read field record

/-- Reads a document that holds one value and nothing behind it. -/
def readDocument {α : Type} (read : Reader α) (s : List Char) : Except Problem α :=
  match read (lex s) with
  | .error p => .error p
  | .ok (a, []) => .ok a
  | .ok (_, _ :: _) => .error .malformed

end RenderBroker.Json
