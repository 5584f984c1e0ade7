import RenderBroker.Json.Reader
import RenderBroker.Proofs.Tokens

namespace RenderBroker

namespace Json

/-- Where a value ends, the skipping ends with it or goes on with the frame around it. -/
def resume (frames : List Frame) (ts : List Token) : Except Problem (List Token) :=
  if frames.isEmpty then .ok ts else skipFrom frames .next ts

/-- The tokens are skipped as one value, in any frames. -/
def Skips (us : List Token) : Prop :=
  ∀ frames ts, skipFrom frames .value (us ++ ts) = resume frames ts

variable {us : List Token}

theorem intercalate_cons {α : Type} (sep : α) (xs : List α) (groups : List (List α)) :
    [sep].intercalate (xs :: groups) = xs ++ groups.flatMap (sep :: ·) := by
  induction groups generalizing xs with
  | nil => simp
  | cons ys groups ih => rw [List.intercalate_cons_cons, ih]; simp

theorem Skips.exists_cons (skips : Skips us) : ∃ t more, us = t :: more ∧ t ≠ .closeBracket := by
  have alone := skips [] []
  cases us with
  | nil => cases alone
  | cons t more =>
    refine ⟨t, more, rfl, ?_⟩
    rintro rfl
    cases alone

theorem Skips.firstItem (skips : Skips us) (frames : List Frame) (ts : List Token) :
    skipFrom (.list :: frames) .firstItem (us ++ ts) = resume (.list :: frames) ts := by
  rw [← skips]
  obtain ⟨t, more, rfl, other⟩ := skips.exists_cons
  cases t with
  | closeBracket => exact absurd rfl other
  | _ => rfl

theorem skipFrom_items {items : List (List Token)} (each : ∀ us ∈ items, Skips us)
    (frames : List Frame) (ts : List Token) :
    skipFrom (.list :: frames) .next (items.flatMap (.comma :: ·) ++ .closeBracket :: ts) =
      resume frames ts := by
  induction items with
  | nil => rfl
  | cons us items ih =>
    obtain ⟨first, others⟩ := List.forall_mem_cons.mp each
    rw [← ih others, List.flatMap_cons, List.append_assoc]
    exact first (.list :: frames) _

theorem Skips.list {items : List (List Token)} (each : ∀ us ∈ items, Skips us) :
    Skips (.openBracket :: [Token.comma].intercalate items ++ [.closeBracket]) := by
  intro frames ts
  cases items with
  | nil => rfl
  | cons us items =>
    -- only the first item stands without a comma, so the others are skipped from theirs on
    obtain ⟨first, others⟩ := List.forall_mem_cons.mp each
    rw [← skipFrom_items others, intercalate_cons, List.cons_append, List.cons_append,
      List.append_assoc, List.append_assoc]
    exact first.firstItem frames _

/-- The tokens of a member whose key has been read or has not. -/
def keyed (m : Except Problem (List Char) × List Token) : List Token :=
  .string m.1 (.ok ()) :: .colon :: m.2

theorem skipFrom_members {members : List (Except Problem (List Char) × List Token)}
    (each : ∀ m ∈ members, Skips m.2) (frames : List Frame) (ts : List Token) :
    skipFrom (.object :: frames) .next
        ((members.map keyed).flatMap (.comma :: ·) ++ .closeBrace :: ts) = resume frames ts := by
  induction members with
  | nil => rfl
  | cons m members ih =>
    obtain ⟨first, others⟩ := List.forall_mem_cons.mp each
    rw [← ih others, List.map_cons, List.flatMap_cons, List.append_assoc]
    exact first (.object :: frames) _

theorem Skips.object {members : List (Except Problem (List Char) × List Token)}
    (each : ∀ m ∈ members, Skips m.2) :
    Skips (.openBrace :: [Token.comma].intercalate (members.map keyed) ++ [.closeBrace]) := by
  intro frames ts
  cases members with
  | nil => rfl
  | cons m members =>
    obtain ⟨first, others⟩ := List.forall_mem_cons.mp each
    rw [← skipFrom_members others, List.map_cons, intercalate_cons, List.cons_append,
      List.cons_append, List.append_assoc, List.append_assoc]
    exact first (.object :: frames) _

theorem nextKey?_separator (first : Bool) (strict : Except Problem (List Char))
    (loose : Except Problem Unit) (ts : List Token) :
    nextKey? first (separator first ++ .string strict loose :: ts) =
      strict.map fun k => some (k, ts) := by
  cases first <;> rfl

theorem expect_colon (ts : List Token) : expect Token.isColon (.colon :: ts) = .ok ts :=
  rfl

theorem members_eq (first : Bool) (k : List Char) (loose : Except Problem Unit) (ts : List Token) :
    members first (separator first ++ .string (.ok k) loose :: ts) =
      match expect Token.isColon ts with
      | .error p => .member k (.error p) (.problem p)
      | .ok value =>
        match skip value with
        | .error p => .member k (.ok value) (.problem p)
        | .ok rest => .member k (.ok value) (members false rest) := by
  have key := nextKey?_separator first (.ok k) loose ts
  rw [members]
  split
  next wrong => rw [key] at wrong; cases wrong
  next wrong => rw [key] at wrong; cases wrong
  next found =>
    rw [key] at found
    cases found
    split
    next broken => rw [broken]
    next colon =>
      split
      next broken => simp only [colon, broken]
      next skipped => simp only [colon, skipped]

theorem members_closeBrace (first : Bool) (ts : List Token) :
    members first (.closeBrace :: ts) = .done ts := by
  rw [members]
  rfl

theorem members_key (first : Bool) (k : List Char) (loose : Except Problem Unit) (ts : List Token) :
    ∃ value more, members first (separator first ++ .string (.ok k) loose :: ts) =
      .member k value more := by
  rw [members_eq]
  split
  next => exact ⟨_, _, rfl⟩
  next => split <;> exact ⟨_, _, rfl⟩

/-- Behind a key and a colon stands the value, whatever it is. -/
theorem members_colon (first : Bool) (k : List Char) (loose : Except Problem Unit)
    (ts : List Token) :
    ∃ more, members first (separator first ++ .string (.ok k) loose :: .colon :: ts) =
      .member k (.ok ts) more := by
  rw [members_eq, expect_colon]
  dsimp only
  split <;> exact ⟨_, rfl⟩

theorem members_skips (skips : Skips us) (first : Bool) (k : List Char)
    (loose : Except Problem Unit) (ts : List Token) :
    members first (separator first ++ .string (.ok k) loose :: .colon :: (us ++ ts)) =
      .member k (.ok (us ++ ts)) (members false ts) := by
  have skipped : skip (us ++ ts) = .ok ts := skips [] ts
  rw [members_eq, expect_colon]
  dsimp only
  rw [skipped]

variable {δ : Type} {field : δ → String → MemberRole δ} {d : δ} {first : Bool} {k : List Char}
  {ts rest : List Token} {r : δ × List Token}

theorem skipFrom_suffix {frames : List Frame} {a : Awaited}
    (skipped : skipFrom frames a ts = .ok rest) : rest <:+ ts := by
  induction ts generalizing frames a with
  | nil => cases a <;> cases skipped
  | cons t ts ih =>
    have here {frames : List Frame} {a : Awaited} (skipped : skipFrom frames a ts = .ok rest) :
        rest <:+ t :: ts := (ih skipped).trans (List.suffix_cons t ts)
    have done (all : Except.ok (ε := Problem) ts = .ok rest) : rest <:+ t :: ts := by
      cases all
      exact List.suffix_cons t rest
    cases a <;> simp only [skipFrom] at skipped <;> repeat' split at skipped
    all_goals first
      | exact here skipped
      | exact done skipped
      | cases skipped

theorem nextKey?_eq_none (last : nextKey? first ts = .ok none) :
    ∃ rest, ts = .closeBrace :: rest := by
  unfold nextKey? at last
  split at last
  next => cases last
  next rest => exact ⟨rest, rfl⟩
  next strict _ _ =>
    split at last
    · cases strict <;> cases last
    · cases last
  next =>
    split at last
    next => cases last
    next =>
      split at last
      next => cases last
      next strict _ _ => cases strict <;> cases last
      next => cases last
  next => cases last

theorem nextKey?_eq_some (key : nextKey? first ts = .ok (some (k, rest))) :
    ∃ loose, ts = separator first ++ .string (.ok k) loose :: rest := by
  unfold nextKey? at key
  split at key
  next => cases key
  next rest => cases key
  next strict loose _ =>
    cases first <;> cases strict <;> cases key
    exact ⟨loose, rfl⟩
  next =>
    cases first
    · rw [if_neg Bool.false_ne_true] at key
      split at key
      next => cases key
      next strict loose _ =>
        cases strict <;> cases key
        exact ⟨loose, rfl⟩
      next => cases key
    · cases key
  next => cases key

theorem expect_isColon (colon : expect Token.isColon ts = .ok rest) :
    ts = .colon :: rest := by
  cases ts with
  | nil => cases colon
  | cons t ts =>
    cases t with
    | colon =>
      cases colon
      rfl
    | _ => cases colon

/-- A member is read only if a value stands behind its key, and then the members behind it are
read. -/
theorem exists_read_of_member {value : Except Problem (List Token)} {more : Members}
    (read : (Members.member k value more).read field d = .ok r) :
    (∃ ts, value = .ok ts) ∧ ∃ e, more.read field e = .ok r := by
  cases value with
  | error p =>
    rw [Members.read] at read
    split at read
    all_goals cases read
  | ok ts =>
    refine ⟨⟨ts, rfl⟩, ?_⟩
    rw [Members.read] at read
    split at read
    next => cases read
    next => exact ⟨d, read⟩
    next =>
      split at read
      next => cases read
      next e _ _ => exact ⟨e, read⟩

/-- What is read as members is the end of their object, or a key, a colon, a value that is skipped,
and what is read as members again. -/
theorem members_read_cases (read : (members first ts).read field d = .ok r) :
    ts = .closeBrace :: r.2 ∨ ∃ k loose value rest e,
      ts = separator first ++ .string (.ok k) loose :: .colon :: value ∧ skip value = .ok rest ∧
        (members false rest).read field e = .ok r := by
  rw [members] at read
  split at read
  next => cases read
  next last =>
    obtain ⟨rest, rfl⟩ := nextKey?_eq_none last
    cases read
    exact .inl rfl
  next k _ key =>
    obtain ⟨loose, rfl⟩ := nextKey?_eq_some key
    split at read
    next =>
      obtain ⟨⟨_, absent⟩, -⟩ := exists_read_of_member read
      cases absent
    next value colon =>
      obtain rfl := expect_isColon colon
      split at read
      next =>
        obtain ⟨-, _, absent⟩ := exists_read_of_member read
        cases absent
      next rest skipped =>
        obtain ⟨-, e, more⟩ := exists_read_of_member read
        exact .inr ⟨k, loose, value, rest, e, rfl, skipped, more⟩

theorem suffix_of_read {d : δ} {first : Bool} {ts : List Token}
    (read : (members first ts).read field d = .ok r) : .closeBrace :: r.2 <:+ ts := by
  rcases members_read_cases read with
    rfl | ⟨k, loose, value, rest, e, rfl, skipped, more⟩
  · exact List.suffix_rfl
  · have shorter := skip_lt skipped
    have later : rest <:+ separator first ++ .string (.ok k) loose :: .colon :: value :=
      ((skipFrom_suffix skipped).trans ((List.suffix_cons _ _).trans (List.suffix_cons _ _))).trans
        (List.suffix_append _ _)
    exact (suffix_of_read more).trans later
termination_by ts.length
decreasing_by
  subst_vars
  simp only [List.length_append, List.length_cons]
  omega

end Json

end RenderBroker
