import EntityTypings.Proofs.TypeScript.Tokens

/-!
# The grammar of types

`Derives` is the part of TypeScript's grammar of types that type expressions are written in: indexing binds tighter
than `&`, which binds tighter than `|`, and parentheses group. `Reads` says that a text is a type by this grammar,
and `Reads.unique` that it is one type only: `Derives.replay` follows a derivation from left to right with a stack of
open brackets.

A type is read as a `TypeTree`. `TypeTree.join` flattens nested unions and nested intersections, takes a single
member for itself, and an empty union for `never`. No names are reserved: a keyword and a reference of the same name
are one type, as their texts are.
-/

namespace EntityTypings.TypeScript

/-! ### Types that are read -/

inductive Operator where
  | union
  | intersection
  deriving DecidableEq, Repr

inductive TypeTree where
  | name (s : String)
  | literal (s : String)
  | apply (s : String) (arguments : List TypeTree)
  | object (fields : List (String × TypeTree))
  | index (owner key : TypeTree)
  | joined (op : Operator) (members : List TypeTree)

/-- What an operator makes of no members. -/
def Operator.unit : Operator → TypeTree
  | .union => .name "never"
  | .intersection => .name "unknown"

namespace TypeTree

variable {op : Operator} {t u : TypeTree} {ts us : List TypeTree}

/-- The members that a type brings into a list joined by an operator. -/
def parts (op : Operator) : TypeTree → List TypeTree
  | .joined op' members => if op' = op then members else [.joined op' members]
  | t => [t]

def join (op : Operator) (ts : List TypeTree) : TypeTree :=
  match ts.flatMap (parts op) with
  | [] => op.unit
  | [t] => t
  | members => .joined op members

/-- A list of members is joined, not flattened any further and not of one member only. -/
def Flat : TypeTree → Prop
  | .joined op members => 2 ≤ members.length ∧ ∀ t ∈ members, parts op t = [t]
  | _ => True

theorem parts_cases (op : Operator) (t : TypeTree) : t = .joined op (parts op t) ∨ parts op t = [t] := by
  cases t with
  | joined op' members =>
    by_cases same : op' = op
    · subst same
      exact .inl (by rw [parts, if_pos rfl])
    · exact .inr (if_neg same)
  | _ => exact .inr rfl

theorem Flat.parts_of_mem (flat : Flat t) (listed : u ∈ parts op t) : parts op u = [u] := by
  rcases parts_cases op t with joined | single
  · rw [joined] at flat
    exact flat.2 u listed
  · rw [single, List.mem_singleton] at listed
    rw [listed, single]

theorem Flat.eq_of_parts (flat : Flat t) (single : parts op t = [u]) : t = u := by
  rcases parts_cases op t with joined | own
  · rw [joined, single] at flat
    exact absurd flat.1 (by simp)
  · exact List.singleton_inj.mp (own.symm.trans single)

theorem Flat.parts_ne_nil (flat : Flat t) : parts op t ≠ [] := by
  intro empty
  rcases parts_cases op t with joined | own
  · rw [joined, empty] at flat
    exact absurd flat.1 (by simp)
  · rw [empty] at own
    cases own

theorem Flat.parts_inj (flat : Flat t) (flat' : Flat u) (same : parts op t = parts op u) : t = u := by
  rcases parts_cases op t with joined | own
  · rcases parts_cases op u with joined' | own'
    · rw [joined, joined', same]
    · exact flat.eq_of_parts (same.trans own')
  · exact (flat'.eq_of_parts (same.symm.trans own)).symm

theorem parts_join (flat : ∀ t ∈ ts, Flat t) (some_member : ts ≠ []) :
    parts op (join op ts) = ts.flatMap (parts op) := by
  unfold join
  split
  next empty =>
    obtain ⟨t, listed⟩ := List.exists_mem_of_ne_nil ts some_member
    exact absurd (List.flatMap_eq_nil_iff.mp empty t listed) (flat t listed).parts_ne_nil
  next u single =>
    have listed : u ∈ ts.flatMap (parts op) := by rw [single]; exact List.mem_singleton_self u
    obtain ⟨t, member, part⟩ := List.mem_flatMap.mp listed
    rw [(flat t member).parts_of_mem part, single]
  · exact if_pos rfl

theorem join_flat (flat : ∀ t ∈ ts, Flat t) : Flat (join op ts) := by
  unfold join
  split
  · cases op <;> trivial
  next u single =>
    obtain ⟨t, rest, rfl⟩ : ∃ t rest, ts = t :: rest := List.exists_cons_of_ne_nil (by rintro rfl; cases single)
    have first := flat t List.mem_cons_self
    rw [List.flatMap_cons, List.append_eq_singleton_iff] at single
    rcases single with ⟨empty, _⟩ | ⟨own, _⟩
    · exact absurd empty first.parts_ne_nil
    · rwa [← first.eq_of_parts own]
  next empty single =>
    refine ⟨?_, fun u listed => ?_⟩
    · match listed : ts.flatMap (parts op) with
      | [] => exact absurd listed empty
      | [u] => exact absurd listed (single u)
      | _ :: _ :: rest => exact Nat.le_add_left 2 rest.length
    · obtain ⟨t, member, part⟩ := List.mem_flatMap.mp listed
      exact (flat t member).parts_of_mem part

theorem join_singleton (flat : Flat t) : join op [t] = t := by
  have each : ∀ u ∈ [t], Flat u := by simpa using flat
  have same : parts op (join op [t]) = parts op t := by
    rw [parts_join each (List.cons_ne_nil t []), List.flatMap_singleton]
  exact (join_flat each).parts_inj flat same

end TypeTree

/-- A type of alternatives, each of them a list of operands. -/
def ofAlternatives (alternatives : List (List TypeTree)) : TypeTree :=
  .join .union (alternatives.map (.join .intersection))

/-! ### Productions -/

/-- What a list of tokens can be read as. -/
inductive Phrase where
  | operand (t : TypeTree)
  | operands (ts : List TypeTree)
  | alternatives (alternatives : List (List TypeTree))
  | arguments (ts : List TypeTree)
  | members (fields : List (String × TypeTree))

def Token.memberName? : Token → Option String
  | .name s => some s
  | .literal s => some s
  | .mark _ => none

inductive Derives : Phrase → List Token → Prop
  | name (s : String) : Derives (.operand (.name s)) [.name s]
  | literal (s : String) : Derives (.operand (.literal s)) [.literal s]
  | apply {ts tokens} (s : String) (inside : Derives (.arguments ts) tokens) :
    Derives (.operand (.apply s ts)) (.name s :: .mark .less :: (tokens ++ [.mark .greater]))
  | emptyObject : Derives (.operand (.object [])) [.mark .brace, .mark .braceEnd]
  | object {fields tokens} (inside : Derives (.members fields) tokens) :
    Derives (.operand (.object fields)) (.mark .brace :: (tokens ++ [.mark .braceEnd]))
  | group {alternatives tokens} (inside : Derives (.alternatives alternatives) tokens) :
    Derives (.operand (ofAlternatives alternatives)) (.mark .parenthesis :: (tokens ++ [.mark .parenthesisEnd]))
  | index {t key tokens tokens'} (owner : Derives (.operand t) tokens)
    (inside : Derives (.alternatives key) tokens') :
    Derives (.operand (.index t (ofAlternatives key))) (tokens ++ .mark .bracket :: (tokens' ++ [.mark .bracketEnd]))
  | oneOperand {t tokens} (own : Derives (.operand t) tokens) : Derives (.operands [t]) tokens
  | moreOperands {t ts tokens tokens'} (first : Derives (.operand t) tokens)
    (later : Derives (.operands ts) tokens') :
    Derives (.operands (t :: ts)) (tokens ++ .mark .ampersand :: tokens')
  | oneAlternative {ts tokens} (own : Derives (.operands ts) tokens) : Derives (.alternatives [ts]) tokens
  | moreAlternatives {ts alternatives tokens tokens'} (first : Derives (.operands ts) tokens)
    (later : Derives (.alternatives alternatives) tokens') :
    Derives (.alternatives (ts :: alternatives)) (tokens ++ .mark .bar :: tokens')
  | oneArgument {alternatives tokens} (own : Derives (.alternatives alternatives) tokens) :
    Derives (.arguments [ofAlternatives alternatives]) tokens
  | moreArguments {alternatives ts tokens tokens'} (first : Derives (.alternatives alternatives) tokens)
    (later : Derives (.arguments ts) tokens') :
    Derives (.arguments (ofAlternatives alternatives :: ts)) (tokens ++ .mark .comma :: tokens')
  | oneMember {token name alternatives tokens} (key : token.memberName? = some name)
    (own : Derives (.alternatives alternatives) tokens) :
    Derives (.members [(name, ofAlternatives alternatives)]) (token :: .mark .colon :: tokens)
  | moreMembers {token name alternatives fields tokens tokens'} (key : token.memberName? = some name)
    (first : Derives (.alternatives alternatives) tokens) (later : Derives (.members fields) tokens') :
    Derives (.members ((name, ofAlternatives alternatives) :: fields))
      (token :: .mark .colon :: (tokens ++ .mark .semicolon :: tokens'))

/-- A text is a type by the grammar. -/
def Reads (text : String) (t : TypeTree) : Prop :=
  ∃ tokens alternatives, scanTokens 0 text.toList = some tokens ∧ Derives (.alternatives alternatives) tokens ∧
    t = ofAlternatives alternatives

/-! ### Following a derivation -/

/-- What has been read inside a bracket. The operands of the current alternative are listed last first. -/
structure Level where
  finished : List (List TypeTree)
  operands : List TypeTree

def Level.start : Level := ⟨[], []⟩

def Level.alternatives (l : Level) : List (List TypeTree) := l.finished ++ [l.operands.reverse]

def Level.tree (l : Level) : TypeTree := ofAlternatives l.alternatives

def Level.push (ts : List TypeTree) (l : Level) : Level := ⟨l.finished, ts.reverse ++ l.operands⟩

/-- An open bracket, with what has been read in front of the current type. -/
inductive Frame where
  | group
  | apply (s : String) (before : List TypeTree)
  | index (owner : TypeTree)
  | object (before : List (String × TypeTree))
  | member (before : List (String × TypeTree)) (name : String)

/-- What stands in a bracket that is closed behind a type. -/
def Frame.close (t : TypeTree) : Frame → TypeTree
  | .group => t
  | .apply s before => .apply s (before ++ [t])
  | .index owner => .index owner t
  | .object before => .object before
  | .member before name => .object (before ++ [(name, t)])

/-- A bracket behind the separator that follows a type. -/
def Frame.separate (t : TypeTree) : Frame → Frame
  | .apply s before => .apply s (before ++ [t])
  | .member before name => .object (before ++ [(name, t)])
  | frame => frame

/-- A bracket behind the colon that follows a member's name. -/
def Frame.label (key : TypeTree) : Frame → Frame
  | .object before =>
    match key with
    | .name s => .member before s
    | .literal s => .member before s
    | _ => .object before
  | frame => frame

/-- The innermost level, and the brackets around it with the levels that they stand in. -/
structure Progress where
  outer : List (Frame × Level)
  level : Level

def Progress.separate (p : Progress) : Progress :=
  match p.outer with
  | [] => p
  | (frame, around) :: outer => ⟨(frame.separate p.level.tree, around) :: outer, .start⟩

def Progress.close (p : Progress) : Progress :=
  match p.outer with
  | [] => p
  | (frame, around) :: outer => ⟨outer, around.push [frame.close p.level.tree]⟩

/-- Reads one token. Nothing is checked, since only the tokens of derivations are read. -/
def Progress.step (p : Progress) (token : Token) : Progress :=
  match token with
  | .name s => ⟨p.outer, p.level.push [.name s]⟩
  | .literal s => ⟨p.outer, p.level.push [.literal s]⟩
  | .mark .ampersand => p
  | .mark .bar => ⟨p.outer, ⟨p.level.alternatives, []⟩⟩
  | .mark .less =>
    match p.level with
    | ⟨finished, .name s :: operands⟩ => ⟨(.apply s [], ⟨finished, operands⟩) :: p.outer, .start⟩
    | _ => p
  | .mark .bracket =>
    match p.level with
    | ⟨finished, t :: operands⟩ => ⟨(.index t, ⟨finished, operands⟩) :: p.outer, .start⟩
    | _ => p
  | .mark .parenthesis => ⟨(.group, p.level) :: p.outer, .start⟩
  | .mark .brace => ⟨(.object [], p.level) :: p.outer, .start⟩
  | .mark .colon =>
    match p.outer, p.level.operands with
    | (frame, around) :: outer, key :: _ => ⟨(frame.label key, around) :: outer, .start⟩
    | _, _ => p
  | .mark .comma => p.separate
  | .mark .semicolon => p.separate
  | .mark .greater => p.close
  | .mark .parenthesisEnd => p.close
  | .mark .bracketEnd => p.close
  | .mark .braceEnd => p.close

def Progress.read (p : Progress) (tokens : List Token) : Progress := tokens.foldl step p

theorem Progress.read_append (p : Progress) (tokens tokens' : List Token) :
    p.read (tokens ++ tokens') = (p.read tokens).read tokens' := List.foldl_append

theorem Progress.read_cons (p : Progress) (token : Token) (tokens : List Token) :
    p.read (token :: tokens) = (p.step token).read tokens := rfl

def Phrase.Replayed (tokens : List Token) : Phrase → Prop
  | .operand t => ∀ outer level, Progress.read ⟨outer, level⟩ tokens = ⟨outer, level.push [t]⟩
  | .operands ts => ∀ outer level, Progress.read ⟨outer, level⟩ tokens = ⟨outer, level.push ts⟩
  | .alternatives choices => ∀ outer finished, ∃ level : Level,
      Progress.read ⟨outer, ⟨finished, []⟩⟩ tokens = ⟨outer, level⟩ ∧ level.alternatives = finished ++ choices
  | .arguments ts => ∀ outer around s before, ∃ (level : Level) (before' : List TypeTree),
      Progress.read ⟨(.apply s before, around) :: outer, .start⟩ tokens =
        ⟨(.apply s before', around) :: outer, level⟩ ∧
      before' ++ [level.tree] = before ++ ts
  | .members fields => ∀ outer around before,
      ∃ (level : Level) (before' : List (String × TypeTree)) (name : String),
        Progress.read ⟨(.object before, around) :: outer, .start⟩ tokens =
          ⟨(.member before' name, around) :: outer, level⟩ ∧
        before' ++ [(name, level.tree)] = before ++ fields

theorem Level.push_push (l : Level) (ts us : List TypeTree) : (l.push ts).push us = l.push (ts ++ us) := by
  rw [push, push, push, List.reverse_append, List.append_assoc]

theorem Level.alternatives_push (finished : List (List TypeTree)) (ts : List TypeTree) :
    (Level.push ts ⟨finished, []⟩).alternatives = finished ++ [ts] := by
  rw [push, alternatives, List.append_nil, List.reverse_reverse]

theorem Progress.step_key {token : Token} {name : String} (key : token.memberName? = some name)
    (outer : List (Frame × Level)) (around : Level) (before : List (String × TypeTree)) :
    (step ⟨(.object before, around) :: outer, .start⟩ token).step (.mark .colon) =
      ⟨(.member before name, around) :: outer, .start⟩ := by
  cases token <;> cases key <;> rfl

theorem Derives.replay {phrase : Phrase} {tokens : List Token} (derivation : Derives phrase tokens) :
    phrase.Replayed tokens := by
  induction derivation with
  | name s => exact fun _ _ => rfl
  | literal s => exact fun _ _ => rfl
  | apply s inside ih =>
    intro outer level
    obtain ⟨inner, before, read, same⟩ := ih outer level s []
    rw [Progress.read_cons, Progress.read_cons, Progress.read_append]
    rw [List.nil_append] at same
    rw [← same]
    exact congrArg (Progress.read · [.mark .greater]) read
  | emptyObject => exact fun _ _ => rfl
  | object inside ih =>
    intro outer level
    obtain ⟨inner, before, name, read, same⟩ := ih outer level []
    rw [Progress.read_cons, Progress.read_append]
    rw [List.nil_append] at same
    rw [← same]
    exact congrArg (Progress.read · [.mark .braceEnd]) read
  | group inside ih =>
    intro outer level
    obtain ⟨inner, read, same⟩ := ih ((.group, level) :: outer) []
    rw [Progress.read_cons, Progress.read_append]
    rw [List.nil_append] at same
    rw [← same]
    exact congrArg (Progress.read · [.mark .parenthesisEnd]) read
  | index owner inside ihOwner ih =>
    intro outer level
    rw [Progress.read_append, ihOwner outer level, Progress.read_cons, Progress.read_append]
    obtain ⟨inner, read, same⟩ := ih ((.index _, level) :: outer) []
    rw [List.nil_append] at same
    rw [← same]
    exact congrArg (Progress.read · [.mark .bracketEnd]) read
  | oneOperand own ih => exact ih
  | moreOperands first later ih ihLater =>
    intro outer level
    rw [Progress.read_append, ih outer level, Progress.read_cons]
    exact (ihLater outer _).trans (congrArg _ (level.push_push _ _))
  | oneAlternative own ih =>
    intro outer finished
    exact ⟨_, ih outer ⟨finished, []⟩, Level.alternatives_push finished _⟩
  | moreAlternatives first later ih ihLater =>
    intro outer finished
    obtain ⟨level, read, same⟩ := ihLater outer (finished ++ [_])
    refine ⟨level, ?_, same.trans (List.append_assoc ..)⟩
    rw [Progress.read_append, ih outer ⟨finished, []⟩, Progress.read_cons, Progress.step, Level.alternatives_push,
      read]
  | oneArgument own ih =>
    intro outer around s before
    obtain ⟨level, read, same⟩ := ih ((.apply s before, around) :: outer) []
    exact ⟨level, before, read, by rw [Level.tree, same, List.nil_append]⟩
  | moreArguments first later ih ihLater =>
    intro outer around s before
    obtain ⟨level, read, same⟩ := ih ((.apply s before, around) :: outer) []
    obtain ⟨level', before', read', same'⟩ := ihLater outer around s (before ++ [level.tree])
    rw [List.nil_append] at same
    refine ⟨level', before', ?_, ?_⟩
    · rw [Progress.read_append, Progress.read_cons, ← read']
      exact congrArg (fun p => (Progress.step p (.mark .comma)).read _) read
    · rw [same', Level.tree, same, List.append_assoc]
      rfl
  | oneMember key own ih =>
    intro outer around before
    obtain ⟨level, read, same⟩ := ih ((.member before _, around) :: outer) []
    refine ⟨level, before, _, ?_, by rw [Level.tree, same, List.nil_append]⟩
    rw [Progress.read_cons, Progress.read_cons, Progress.step_key key]
    exact read
  | moreMembers key first later ih ihLater =>
    intro outer around before
    obtain ⟨level, read, same⟩ := ih ((.member before _, around) :: outer) []
    obtain ⟨level', before', name', read', same'⟩ := ihLater outer around (before ++ [(_, level.tree)])
    rw [List.nil_append] at same
    refine ⟨level', before', name', ?_, ?_⟩
    · rw [Progress.read_cons, Progress.read_cons, Progress.step_key key, Progress.read_append, Progress.read_cons,
        ← read']
      exact congrArg (fun p => (Progress.step p (.mark .semicolon)).read _) read
    · rw [same', Level.tree, same, List.append_assoc]
      rfl

theorem Derives.alternatives_unique {alternatives alternatives' : List (List TypeTree)} {tokens : List Token}
    (derivation : Derives (.alternatives alternatives) tokens)
    (derivation' : Derives (.alternatives alternatives') tokens) : alternatives = alternatives' := by
  obtain ⟨level, read, same⟩ := derivation.replay [] []
  obtain ⟨level', read', same'⟩ := derivation'.replay [] []
  obtain rfl : level = level' := congrArg Progress.level (read.symm.trans read')
  exact same.symm.trans same'

/-- A text is read as one type at most. -/
theorem Reads.unique {text : String} {t u : TypeTree} (first : Reads text t) (second : Reads text u) : t = u := by
  obtain ⟨tokens, alternatives, scanned, derivation, rfl⟩ := first
  obtain ⟨tokens', alternatives', scanned', derivation', rfl⟩ := second
  obtain rfl : tokens = tokens' := Option.some_inj.mp (scanned.symm.trans scanned')
  rw [derivation.alternatives_unique derivation']

end EntityTypings.TypeScript
