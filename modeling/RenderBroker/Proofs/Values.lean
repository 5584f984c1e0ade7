import RenderBroker.Proofs.Lexemes
import RenderBroker.Proofs.Skipping

namespace RenderBroker

namespace Json

def entry (m : List Piece × List Lexeme) : List Lexeme :=
  .string m.1 :: .colon :: m.2

/-- Lexemes that form one value, of any depth; names may be repeated in it. -/
inductive IsValue : List Lexeme → Prop
  | word (w : Word) : IsValue [.word w]
  | number (n : Number) : IsValue [.number n]
  | string (ps : List Piece) : IsValue [.string ps]
  | list {items : List (List Lexeme)} (each : ∀ ls ∈ items, IsValue ls) :
      IsValue (.openBracket :: [Lexeme.comma].intercalate items ++ [.closeBracket])
  | object {members : List (List Piece × List Lexeme)} (each : ∀ m ∈ members, IsValue m.2) :
      IsValue (.openBrace :: [Lexeme.comma].intercalate (members.map entry) ++ [.closeBrace])

theorem map_token_intercalate (groups : List (List Lexeme)) :
    ([Lexeme.comma].intercalate groups).map Lexeme.token =
      [Token.comma].intercalate (groups.map (List.map Lexeme.token)) := by
  cases groups with
  | nil => rfl
  | cons ls groups =>
    rw [List.map_cons, intercalate_cons, intercalate_cons, List.map_append, List.map_flatMap,
      List.flatMap_map]
    rfl

theorem skips_of_isValue {ls : List Lexeme} (isValue : IsValue ls) :
    Skips (ls.map Lexeme.token) := by
  induction isValue with
  | word | number | string =>
    intro frames ts
    rfl
  | @list items _ each =>
    rw [List.map_append, List.map_cons, map_token_intercalate]
    exact .list (List.forall_mem_map.mpr each)
  | @object members _ each =>
    have keyed_members : (members.map entry).map (List.map Lexeme.token) =
        (members.map fun m => (strictText m.1 (.ok []), m.2.map Lexeme.token)).map keyed := by
      simp only [List.map_map]
      rfl
    rw [List.map_append, List.map_cons, map_token_intercalate, keyed_members]
    exact .object (List.forall_mem_map.mpr each)

/-- What open frames still demand of lexemes, and what is left behind them: the rest of each list and
of each object, and its end. -/
def Closes : List Frame → List Lexeme → List Lexeme → Prop
  | [], ls, more => ls = more
  | .list :: frames, ls, more => ∃ (items : List (List Lexeme)) (tail : List Lexeme),
      (∀ v ∈ items, IsValue v) ∧ ls = items.flatMap (.comma :: ·) ++ .closeBracket :: tail ∧
        Closes frames tail more
  | .object :: frames, ls, more =>
    ∃ (members : List (List Piece × List Lexeme)) (tail : List Lexeme),
      (∀ m ∈ members, IsValue m.2) ∧
        ls = (members.map entry).flatMap (.comma :: ·) ++ .closeBrace :: tail ∧
          Closes frames tail more

/-- Lexemes that begin with what is awaited and then close the open frames. -/
inductive Meets (frames : List Frame) (more : List Lexeme) : Awaited → List Lexeme → Prop
  | value {v tail : List Lexeme} (isValue : IsValue v) (closes : Closes frames tail more) :
      Meets frames more .value (v ++ tail)
  | noItem {tail : List Lexeme} (closes : Closes frames.tail tail more) :
      Meets frames more .firstItem (.closeBracket :: tail)
  | firstItem {v tail : List Lexeme} (isValue : IsValue v) (closes : Closes frames tail more) :
      Meets frames more .firstItem (v ++ tail)
  | noKey {tail : List Lexeme} (closes : Closes frames.tail tail more) :
      Meets frames more .firstKey (.closeBrace :: tail)
  | firstKey {m : List Piece × List Lexeme} {tail : List Lexeme} (isValue : IsValue m.2)
      (closes : Closes frames tail more) : Meets frames more .firstKey (entry m ++ tail)
  | key {m : List Piece × List Lexeme} {tail : List Lexeme} (isValue : IsValue m.2)
      (closes : Closes frames tail more) : Meets frames more .key (entry m ++ tail)
  | colon {v tail : List Lexeme} (isValue : IsValue v) (closes : Closes frames tail more) :
      Meets frames more .colon (.colon :: v ++ tail)
  | next {tail : List Lexeme} (closes : Closes frames tail more) : Meets frames more .next tail

variable {frames : List Frame} {a : Awaited} {rest : List Token} {l : Lexeme} {ls more : List Lexeme}

theorem Meets.list (meets : Meets (.list :: frames) more .firstItem ls) :
    Meets frames more .value (.openBracket :: ls) := by
  cases meets with
  | noItem closes =>
    have list : IsValue [.openBracket, .closeBracket] := .list (List.forall_mem_nil _)
    exact .value list closes
  | @firstItem v _ isValue closes =>
    obtain ⟨items, tail, each, rfl, closes⟩ := closes
    have list : IsValue (.openBracket :: [Lexeme.comma].intercalate (v :: items) ++
        [.closeBracket]) := .list (List.forall_mem_cons.mpr ⟨isValue, each⟩)
    rw [intercalate_cons] at list
    have value := Meets.value list closes
    simpa using value

theorem Meets.object (meets : Meets (.object :: frames) more .firstKey ls) :
    Meets frames more .value (.openBrace :: ls) := by
  cases meets with
  | noKey closes =>
    have object : IsValue [.openBrace, .closeBrace] := .object (List.forall_mem_nil _)
    exact .value object closes
  | @firstKey m _ isValue closes =>
    obtain ⟨members, tail, each, rfl, closes⟩ := closes
    have object : IsValue (.openBrace :: [Lexeme.comma].intercalate ((m :: members).map entry) ++
        [.closeBrace]) := .object (List.forall_mem_cons.mpr ⟨isValue, each⟩)
    rw [List.map_cons, intercalate_cons] at object
    have value := Meets.value object closes
    simpa using value

theorem eq_of_token {l m : Lexeme} (same : l.token = m.token) (mark : m.token.verdict? = none) :
    l = m := by
  cases m with
  | word | number | string => cases mark
  | _ =>
    cases l <;> first
      | rfl
      | cases same

theorem skipFrom_nil_next (ts : List Token) : ∃ p, skipFrom [] .next ts = .error p := by
  cases ts with
  | nil => exact ⟨.ended, rfl⟩
  | cons t ts => cases t <;> exact ⟨.malformed, rfl⟩

/-- What does not end a list is skipped as its first item as it is alone. -/
theorem skipFrom_value {t : Token} {ts : List Token} (other : t ≠ .closeBracket)
    (skipped : skipFrom frames .firstItem (t :: ts) = .ok rest) :
    skipFrom frames .value (t :: ts) = .ok rest := by
  cases frames with
  | cons =>
    cases t with
    | closeBracket => exact absurd rfl other
    | _ => exact skipped
  | nil =>
    obtain ⟨p, refused⟩ := skipFrom_nil_next ts
    cases t with
    | openBracket | openBrace => exact skipped
    | word w v | number _ v | string _ v =>
      cases v with
      | error p => cases skipped
      | ok => cases refused.symm.trans skipped
    | closeBracket => exact absurd rfl other
    | _ => cases skipped

theorem skipFrom_key {t : Token} {ts : List Token} (other : t ≠ .closeBrace) :
    skipFrom frames .firstKey (t :: ts) = skipFrom frames .key (t :: ts) := by
  cases t with
  | closeBrace => exact absurd rfl other
  | string _ v => cases v <;> rfl
  | _ => rfl

def Sound (ls : List Lexeme) : Prop :=
  ∀ frames a rest, skipFrom frames a (ls.map Lexeme.token) = .ok rest →
    ∃ more, rest = more.map Lexeme.token ∧ Meets frames more a ls

namespace Sound

theorem resume (sound : Sound ls) (resumed : resume frames (ls.map Lexeme.token) = .ok rest) :
    ∃ more, rest = more.map Lexeme.token ∧ Closes frames ls more := by
  cases frames with
  | nil =>
    cases resumed
    exact ⟨ls, rfl, rfl⟩
  | cons frame frames =>
    obtain ⟨more, left, meets⟩ := sound _ _ _ resumed
    cases meets with
    | next closes => exact ⟨more, left, closes⟩

theorem value (sound : Sound ls)
    (skipped : skipFrom frames .value ((l :: ls).map Lexeme.token) = .ok rest) :
    ∃ more, rest = more.map Lexeme.token ∧ Meets frames more .value (l :: ls) := by
  cases l with
  | openBracket =>
    obtain ⟨more, left, meets⟩ := sound _ _ _ skipped
    exact ⟨more, left, meets.list⟩
  | openBrace =>
    obtain ⟨more, left, meets⟩ := sound _ _ _ skipped
    exact ⟨more, left, meets.object⟩
  | word w =>
    obtain ⟨more, left, closes⟩ := sound.resume skipped
    exact ⟨more, left, .value (.word w) closes⟩
  | number n =>
    obtain ⟨more, left, closes⟩ := sound.resume skipped
    exact ⟨more, left, .value (.number n) closes⟩
  | string ps =>
    obtain ⟨more, left, closes⟩ := sound.resume skipped
    exact ⟨more, left, .value (.string ps) closes⟩
  | closeBracket | closeBrace | colon | comma => cases skipped

theorem firstItem (sound : Sound ls)
    (skipped : skipFrom frames .firstItem ((l :: ls).map Lexeme.token) = .ok rest) :
    ∃ more, rest = more.map Lexeme.token ∧ Meets frames more .firstItem (l :: ls) := by
  by_cases close : l = .closeBracket
  · subst close
    obtain ⟨more, left, closes⟩ := sound.resume skipped
    exact ⟨more, left, .noItem closes⟩
  · have other : l.token ≠ .closeBracket := fun same =>
      close (eq_of_token (m := .closeBracket) same rfl)
    obtain ⟨more, left, meets⟩ := sound.value (skipFrom_value other skipped)
    generalize l :: ls = whole at meets
    cases meets with
    | value isValue closes => exact ⟨more, left, .firstItem isValue closes⟩

theorem key (sound : Sound ls)
    (skipped : skipFrom frames .key ((l :: ls).map Lexeme.token) = .ok rest) :
    ∃ more, rest = more.map Lexeme.token ∧ Meets frames more .key (l :: ls) := by
  cases l with
  | string ps =>
    obtain ⟨more, left, meets⟩ := sound _ _ _ skipped
    cases meets with
    | @colon v _ isValue closes => exact ⟨more, left, .key (m := (ps, v)) isValue closes⟩
  | _ => cases skipped

theorem firstKey (sound : Sound ls)
    (skipped : skipFrom frames .firstKey ((l :: ls).map Lexeme.token) = .ok rest) :
    ∃ more, rest = more.map Lexeme.token ∧ Meets frames more .firstKey (l :: ls) := by
  by_cases close : l = .closeBrace
  · subst close
    obtain ⟨more, left, closes⟩ := sound.resume skipped
    exact ⟨more, left, .noKey closes⟩
  · have other : l.token ≠ .closeBrace := fun same =>
      close (eq_of_token (m := .closeBrace) same rfl)
    obtain ⟨more, left, meets⟩ := sound.key ((skipFrom_key other).symm.trans skipped)
    generalize l :: ls = whole at meets
    cases meets with
    | key isValue closes => exact ⟨more, left, .firstKey isValue closes⟩

theorem colon (sound : Sound ls)
    (skipped : skipFrom frames .colon ((l :: ls).map Lexeme.token) = .ok rest) :
    ∃ more, rest = more.map Lexeme.token ∧ Meets frames more .colon (l :: ls) := by
  cases l with
  | colon =>
    obtain ⟨more, left, meets⟩ := sound _ _ _ skipped
    cases meets with
    | value isValue closes => exact ⟨more, left, .colon isValue closes⟩
  | _ => cases skipped

theorem next (sound : Sound ls)
    (skipped : skipFrom frames .next ((l :: ls).map Lexeme.token) = .ok rest) :
    ∃ more, rest = more.map Lexeme.token ∧ Meets frames more .next (l :: ls) := by
  cases frames with
  | nil =>
    obtain ⟨p, refused⟩ := skipFrom_nil_next ((l :: ls).map Lexeme.token)
    cases refused.symm.trans skipped
  | cons frame frames =>
    cases frame with
    | list =>
      cases l with
      | comma =>
        obtain ⟨more, left, meets⟩ := sound _ _ _ skipped
        cases meets with
        | @value v _ isValue closes =>
          obtain ⟨items, tail, each, rfl, closes⟩ := closes
          refine ⟨more, left, .next ⟨v :: items, tail, ?_, ?_, closes⟩⟩
          · exact List.forall_mem_cons.mpr ⟨isValue, each⟩
          · simp
      | closeBracket =>
        obtain ⟨more, left, closes⟩ := sound.resume skipped
        exact ⟨more, left, .next ⟨[], ls, List.forall_mem_nil _, rfl, closes⟩⟩
      | _ => cases skipped
    | object =>
      cases l with
      | comma =>
        obtain ⟨more, left, meets⟩ := sound _ _ _ skipped
        cases meets with
        | @key m _ isValue closes =>
          obtain ⟨members, tail, each, rfl, closes⟩ := closes
          refine ⟨more, left, .next ⟨m :: members, tail, ?_, ?_, closes⟩⟩
          · exact List.forall_mem_cons.mpr ⟨isValue, each⟩
          · simp
      | closeBrace =>
        obtain ⟨more, left, closes⟩ := sound.resume skipped
        exact ⟨more, left, .next ⟨[], ls, List.forall_mem_nil _, rfl, closes⟩⟩
      | _ => cases skipped

end Sound

theorem sound (ls : List Lexeme) : Sound ls := by
  induction ls with
  | nil =>
    intro frames a rest skipped
    cases a <;> cases skipped
  | cons l ls sound =>
    intro frames a rest skipped
    cases a with
    | value => exact sound.value skipped
    | firstItem => exact sound.firstItem skipped
    | firstKey => exact sound.firstKey skipped
    | key => exact sound.key skipped
    | colon => exact sound.colon skipped
    | next => exact sound.next skipped

/-- Lexemes that are skipped are a value. -/
theorem exists_isValue (skipped : skip (ls.map Lexeme.token) = .ok rest) :
    ∃ v more, IsValue v ∧ ls = v ++ more ∧ rest = more.map Lexeme.token := by
  obtain ⟨more, left, meets⟩ := sound ls _ _ _ skipped
  cases meets with
  | value isValue closes => exact ⟨_, more, isValue, by rw [closes], left⟩

end Json

end RenderBroker
