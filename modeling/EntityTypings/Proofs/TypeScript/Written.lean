import EntityTypings.Proofs.TypeScript.Grammar

/-!
# How types are read

`TypeExpr.terms` is what stands between the operators in the text of a type outside of all brackets, and
`TypeExpr.reads_render` says that this is how the text is read, whatever stands in its literals and field names. Only
a carriage return makes it unreadable.
-/

namespace EntityTypings.TypeScript

namespace TypeExpr

/-! ### The types in a type -/

def children : TypeExpr → List TypeExpr
  | .reference _ => []
  | .keyword _ => []
  | .literal _ => []
  | .array item => [item]
  | .union ts => ts
  | .object fields => fields.map Prod.snd
  | .record key value => [key, value]
  | .intersection ts => ts
  | .generic _ ts => ts
  | .indexed owner _ => [owner]

mutual

/-- What holds of a type if it holds of the types in it holds of every type. -/
theorem byChildren {motive : TypeExpr → Prop} (step : ∀ t, (∀ c ∈ t.children, motive c) → motive t)
    (t : TypeExpr) : motive t := by
  refine step t ?_
  cases t with
  | reference | keyword | literal => exact List.forall_mem_nil _
  | array item => exact List.forall_mem_singleton.mpr (byChildren step item)
  | union ts => exact byChildrenEach step ts
  | object fields => exact byChildrenFields step fields
  | record key value =>
    exact List.forall_mem_cons.mpr ⟨byChildren step key, List.forall_mem_singleton.mpr (byChildren step value)⟩
  | intersection ts => exact byChildrenEach step ts
  | generic _ ts => exact byChildrenEach step ts
  | indexed owner _ => exact List.forall_mem_singleton.mpr (byChildren step owner)

theorem byChildrenEach {motive : TypeExpr → Prop} (step : ∀ t, (∀ c ∈ t.children, motive c) → motive t)
    (ts : List TypeExpr) : ∀ t ∈ ts, motive t := by
  cases ts with
  | nil => exact List.forall_mem_nil _
  | cons t ts => exact List.forall_mem_cons.mpr ⟨byChildren step t, byChildrenEach step ts⟩

theorem byChildrenFields {motive : TypeExpr → Prop} (step : ∀ t, (∀ c ∈ t.children, motive c) → motive t)
    (fields : List (String × TypeExpr)) : ∀ t ∈ fields.map Prod.snd, motive t := by
  cases fields with
  | nil => exact List.forall_mem_nil _
  | cons f fields => exact List.forall_mem_cons.mpr ⟨byChildren step f.2, byChildrenFields step fields⟩

end

inductive Everywhere (p : TypeExpr → Prop) : TypeExpr → Prop
  | intro {t : TypeExpr} (here : p t) (inside : ∀ c ∈ t.children, Everywhere p c) : Everywhere p t

theorem everywhere_iff {p : TypeExpr → Prop} {t : TypeExpr} :
    Everywhere p t ↔ p t ∧ ∀ c ∈ t.children, Everywhere p c :=
  ⟨fun ⟨here, inside⟩ => ⟨here, inside⟩, fun ⟨here, inside⟩ => ⟨here, inside⟩⟩

theorem namedFields_inside {valid : String → Prop} {fields : List (String × TypeExpr)}
    (named : NamedFields valid fields) : ∀ c ∈ fields.map Prod.snd, c.Named valid := by
  induction fields with
  | nil => exact List.forall_mem_nil _
  | cons f fields ih => exact List.forall_mem_cons.mpr ⟨named.1, ih named.2⟩

theorem Named.inside {valid : String → Prop} {t : TypeExpr} (named : t.Named valid) :
    ∀ c ∈ t.children, c.Named valid := by
  cases t with
  | reference | keyword | literal => exact List.forall_mem_nil _
  | array item => exact List.forall_mem_singleton.mpr named
  | union ts => exact namedEach_iff.mp named
  | object fields => exact namedFields_inside named
  | record key value => exact List.forall_mem_cons.mpr ⟨named.1, List.forall_mem_singleton.mpr named.2⟩
  | intersection ts => exact namedEach_iff.mp named
  | generic _ ts => exact namedEach_iff.mp named.2
  | indexed owner _ => exact List.forall_mem_singleton.mpr named

/-! ### What types are read as -/

/-- No list of operands or arguments is empty. -/
def Filled : TypeExpr → Prop
  | .intersection ts => ts ≠ []
  | .generic _ ts => ts ≠ []
  | _ => True

/-- No literal and no name of a field has a carriage return. -/
def Unbroken : TypeExpr → Prop
  | .literal s => '\r' ∉ s.toList
  | .object fields => ∀ f ∈ fields, '\r' ∉ f.1.toList
  | .indexed _ key => '\r' ∉ key.toList
  | _ => True

end TypeExpr

/-- Changes the last entry of a list. -/
def onLast {α : Type} (f : α → α) : List α → List α
  | [] => []
  | [x] => [f x]
  | x :: y :: xs => x :: onLast f (y :: xs)

theorem length_onLast {α : Type} (f : α → α) (l : List α) : (onLast f l).length = l.length := by
  induction l with
  | nil => rfl
  | cons x l ih =>
    cases l with
    | nil => rfl
    | cons y l => exact congrArg (· + 1) ih

theorem forall_mem_onLast {α : Type} {p : α → Prop} {f : α → α} {l : List α} (each : ∀ x ∈ l, p x)
    (changed : ∀ x, p x → p (f x)) : ∀ x ∈ onLast f l, p x := by
  induction l with
  | nil => exact each
  | cons x l ih =>
    obtain ⟨first, rest⟩ := List.forall_mem_cons.mp each
    cases l with
    | nil => exact List.forall_mem_singleton.mpr (changed x first)
    | cons y l => exact List.forall_mem_cons.mpr ⟨first, ih rest⟩

/-- Alternatives with an index behind the last operand of the last one. -/
def indexLast (key : TypeTree) (alternatives : List (List TypeTree)) : List (List TypeTree) :=
  onLast (onLast (.index · key)) alternatives

/-- The alternatives of two texts with `&` between them. -/
def meet : List (List TypeTree) → List (List TypeTree) → List (List TypeTree)
  | [], later => later
  | [xs], [] => [xs]
  | [xs], ys :: later => (xs ++ ys) :: later
  | xs :: xs' :: first, later => xs :: meet (xs' :: first) later

theorem meet_nil (alternatives : List (List TypeTree)) : meet alternatives [] = alternatives := by
  induction alternatives with
  | nil => rfl
  | cons xs first ih =>
    cases first with
    | nil => rfl
    | cons xs' first => exact congrArg (xs :: ·) ih

theorem length_meet {first later : List (List TypeTree)} (some_first : first ≠ []) (some_later : later ≠ []) :
    (meet first later).length + 1 = first.length + later.length := by
  induction first with
  | nil => exact absurd rfl some_first
  | cons xs first ih =>
    cases first with
    | nil =>
      cases later with
      | nil => exact absurd rfl some_later
      | cons ys later => simp [meet, Nat.add_comm]
    | cons xs' first =>
      have rest := ih (List.cons_ne_nil xs' first)
      simp only [meet, List.length_cons] at rest ⊢
      omega

namespace TypeExpr

mutual

/-- The alternatives that the text of a type consists of. -/
def terms : TypeExpr → List (List TypeTree)
  | .reference name => [[.name name]]
  | .keyword k => [[.name k.text]]
  | .literal s => [[.literal s]]
  | .array item => [[.apply "Array" [ofAlternatives item.terms]]]
  | .union [] => [[.name "never"]]
  | .union (t :: ts) => (termsEach (t :: ts)).flatten
  | .object fields => [[.object (fieldTerms fields)]]
  | .record key value => [[.apply "Record" [ofAlternatives key.terms, ofAlternatives value.terms]]]
  | .intersection ts => (operandTerms ts).foldr meet []
  | .generic name ts => [[.apply name ((termsEach ts).map ofAlternatives)]]
  | .indexed owner key => indexLast (.literal key) owner.terms

def termsEach : List TypeExpr → List (List (List TypeTree))
  | [] => []
  | t :: ts => t.terms :: termsEach ts

/-- The alternatives of operands, which may stand in parentheses. -/
def operandTerms : List TypeExpr → List (List (List TypeTree))
  | [] => []
  | t :: ts => (if t.isWideUnion then [[ofAlternatives t.terms]] else t.terms) :: operandTerms ts

def fieldTerms : List (String × TypeExpr) → List (String × TypeTree)
  | [] => []
  | f :: fields => (f.1, ofAlternatives f.2.terms) :: fieldTerms fields

end

theorem termsEach_eq_map (ts : List TypeExpr) : termsEach ts = ts.map terms := by
  induction ts with
  | nil => rfl
  | cons t ts ih => rw [termsEach, List.map_cons, ih]

def operand (t : TypeExpr) : List (List TypeTree) := if t.isWideUnion then [[ofAlternatives t.terms]] else t.terms

theorem operandTerms_eq_map (ts : List TypeExpr) : operandTerms ts = ts.map operand := by
  induction ts with
  | nil => rfl
  | cons t ts ih => rw [operandTerms, List.map_cons, ih, operand]

def reading (t : TypeExpr) : TypeTree := ofAlternatives t.terms

theorem fieldTerms_eq_map (fields : List (String × TypeExpr)) :
    fieldTerms fields = fields.map fun f => (f.1, f.2.reading) := by
  induction fields with
  | nil => rfl
  | cons f fields ih => rw [fieldTerms, List.map_cons, ih, reading]

end TypeExpr

/-! ### Derivations of longer texts -/

section

variable {xs ys : List TypeTree} {first later key : List (List TypeTree)} {tokens tokens' : List Token}

theorem Derives.operands_append (derivation : Derives (.operands xs) tokens)
    (derivation' : Derives (.operands ys) tokens') :
    Derives (.operands (xs ++ ys)) (tokens ++ .mark .ampersand :: tokens') := by
  induction xs generalizing tokens with
  | nil => cases derivation
  | cons x xs ih =>
    cases derivation with
    | oneOperand own => exact .moreOperands own derivation'
    | moreOperands own rest =>
      rw [List.append_assoc]
      exact .moreOperands own (ih rest)

theorem Derives.alternatives_append (derivation : Derives (.alternatives first) tokens)
    (derivation' : Derives (.alternatives later) tokens') :
    Derives (.alternatives (first ++ later)) (tokens ++ .mark .bar :: tokens') := by
  induction first generalizing tokens with
  | nil => cases derivation
  | cons x xs ih =>
    cases derivation with
    | oneAlternative own => exact .moreAlternatives own derivation'
    | moreAlternatives own rest =>
      rw [List.append_assoc]
      exact .moreAlternatives own (ih rest)

theorem Derives.meet (derivation : Derives (.alternatives first) tokens)
    (derivation' : Derives (.alternatives later) tokens') :
    Derives (.alternatives (meet first later)) (tokens ++ .mark .ampersand :: tokens') := by
  induction first generalizing tokens with
  | nil => cases derivation
  | cons x xs ih =>
    cases derivation with
    | oneAlternative own =>
      cases derivation' with
      | oneAlternative own' => exact .oneAlternative (own.operands_append own')
      | moreAlternatives own' rest' =>
        rw [← List.cons_append, ← List.append_assoc]
        exact .moreAlternatives (own.operands_append own') rest'
    | moreAlternatives own rest =>
      rw [List.append_assoc]
      cases xs with
      | nil => cases rest
      | cons x' xs => exact .moreAlternatives own (ih rest)

theorem Derives.members_cons {f : String × TypeTree} {fields : List (String × TypeTree)}
    (derivation : Derives (.members [f]) tokens) (derivation' : Derives (.members fields) tokens') :
    Derives (.members (f :: fields)) (tokens ++ .mark .semicolon :: tokens') := by
  cases derivation with
  | oneMember key own => exact .moreMembers key own derivation'
  | moreMembers _ _ rest => cases rest

theorem Derives.operands_index (derivation : Derives (.operands xs) tokens)
    (inside : Derives (.alternatives key) tokens') :
    Derives (.operands (onLast (.index · (ofAlternatives key)) xs))
      (tokens ++ .mark .bracket :: (tokens' ++ [.mark .bracketEnd])) := by
  induction xs generalizing tokens with
  | nil => cases derivation
  | cons x xs ih =>
    cases derivation with
    | oneOperand own => exact .oneOperand (.index own inside)
    | moreOperands own rest =>
      rw [List.append_assoc]
      cases xs with
      | nil => cases rest
      | cons x' xs => exact .moreOperands own (ih rest)

theorem Derives.alternatives_index (derivation : Derives (.alternatives first) tokens)
    (inside : Derives (.alternatives key) tokens') :
    Derives (.alternatives (indexLast (ofAlternatives key) first))
      (tokens ++ .mark .bracket :: (tokens' ++ [.mark .bracketEnd])) := by
  unfold indexLast
  induction first generalizing tokens with
  | nil => cases derivation
  | cons x xs ih =>
    cases derivation with
    | oneAlternative own => exact .oneAlternative (own.operands_index inside)
    | moreAlternatives own rest =>
      rw [List.append_assoc]
      cases xs with
      | nil => cases rest
      | cons x' xs => exact .moreAlternatives own (ih rest)

end

/-! ### Texts of phrases -/

def Anything (_ : List Char) : Prop := True

theorem endsName_of_head {c : Char} {s : String} (start : s.toList.head? = some c) (other : continuesName c = false)
    (rest : List Char) : EndsName (s.toList ++ rest) := by
  intro d first
  rw [List.head?_append, start] at first
  cases first
  exact other

/-- In front of a text that no name can go on into, a text is read as a phrase unless it is broken. -/
def Written (s : String) (unbroken : Prop) (phrase : Phrase) : Prop :=
  ∃ tokens, Scans EndsName s unbroken tokens ∧ Derives phrase tokens

theorem Written.congr {s : String} {unbroken unbroken' : Prop} {phrase : Phrase} (written : Written s unbroken phrase)
    (same : unbroken ↔ unbroken') : Written s unbroken' phrase := by
  rwa [← propext same]

theorem Written.imp {s : String} {unbroken : Prop} {phrase phrase' : Phrase} (written : Written s unbroken phrase)
    (derive : ∀ {tokens}, Derives phrase tokens → Derives phrase' tokens) : Written s unbroken phrase' := by
  obtain ⟨tokens, scanned, derivation⟩ := written
  exact ⟨tokens, scanned, derive derivation⟩

theorem scans_fixed {s : String} {tokens : List Token}
    (read : ∀ rest, scanTokens 0 (s.toList ++ rest) = (scanTokens 0 rest).map (tokens ++ ·)) :
    Scans Anything s True tokens :=
  ⟨fun _ rest _ => read rest, fun broken => absurd trivial broken⟩

variable {s t opening closing separator : String} {unbroken unbroken' : Prop}
  {tokens tokens' outer outer' : List Token} {alternatives : List (List TypeTree)}

theorem Scans.separated (first : Scans EndsName s unbroken tokens) (second : Scans EndsName t unbroken' tokens')
    (between : Scans Anything separator True outer) (apart : ∀ rest, EndsName (separator.toList ++ rest)) :
    Scans EndsName (s ++ separator ++ t) (unbroken ∧ unbroken') (tokens ++ outer ++ tokens') :=
  ((first.append between fun rest _ => apart rest).append second fun _ _ => trivial).congr (by simp)

theorem Scans.enclosed (inside : Scans EndsName s unbroken tokens) (before : Scans Anything opening True outer)
    (behind : Scans Anything closing True outer') (apart : ∀ rest, EndsName (closing.toList ++ rest)) :
    Scans EndsName (opening ++ s ++ closing) unbroken (outer ++ tokens ++ outer') :=
  (((before.append inside fun _ _ => trivial).append behind fun rest _ => apart rest).mono fun _ _ => trivial).congr
    (by simp)

theorem Derives.single {t : TypeTree} (derivation : Derives (.operand t) tokens) :
    Derives (.alternatives [[t]]) tokens :=
  .oneAlternative (.oneOperand derivation)

theorem written_name (named : IsName s) : Written s True (.alternatives [[.name s]]) :=
  ⟨_, scans_name named, (Derives.name s).single⟩

theorem written_quote (s : String) : Written (quote s) ('\r' ∉ s.toList) (.alternatives [[.literal s]]) :=
  ⟨_, (scans_quote s).mono fun _ _ => trivial, (Derives.literal s).single⟩

theorem Written.apply {name : String} {ts : List TypeTree} (named : IsName name)
    (inside : Written s unbroken (.arguments ts)) :
    Written (name ++ "<" ++ s ++ ">") unbroken (.alternatives [[.apply name ts]]) := by
  obtain ⟨tokens, scanned, derivation⟩ := inside
  have less : Scans Anything "<" True [.mark .less] := scans_fixed fun _ => rfl
  have greater : Scans Anything ">" True [.mark .greater] := scans_fixed fun _ => rfl
  have head := (scans_name named).append less fun rest _ => endsName_of_head rfl (by decide) rest
  have before := head.congr and_self_iff
  have whole := scanned.enclosed before greater (endsName_of_head rfl (by decide))
  exact ⟨_, whole, (Derives.apply name derivation).single⟩

theorem Written.group (inside : Written s unbroken (.alternatives alternatives)) :
    Written ("(" ++ s ++ ")") unbroken (.alternatives [[ofAlternatives alternatives]]) := by
  obtain ⟨tokens, scanned, derivation⟩ := inside
  have before : Scans Anything "(" True [.mark .parenthesis] := scans_fixed fun _ => rfl
  have behind : Scans Anything ")" True [.mark .parenthesisEnd] := scans_fixed fun _ => rfl
  exact ⟨_, scanned.enclosed before behind (endsName_of_head rfl (by decide)), (Derives.group derivation).single⟩

theorem Written.index (owner : Written s unbroken (.alternatives alternatives)) (key : String) :
    Written (s ++ "[" ++ quote key ++ "]") (unbroken ∧ '\r' ∉ key.toList)
      (.alternatives (indexLast (.literal key) alternatives)) := by
  obtain ⟨tokens, scanned, derivation⟩ := owner
  have before : Scans Anything "[" True [.mark .bracket] := scans_fixed fun _ => rfl
  have behind : Scans EndsName "]" True [.mark .bracketEnd] := (scans_fixed fun _ => rfl).mono fun _ _ => trivial
  have literal : Scans EndsName (quote key) ('\r' ∉ key.toList) [.literal key] :=
    (scans_quote key).mono fun _ _ => trivial
  have whole := (scanned.separated literal before (endsName_of_head rfl (by decide))).append behind fun rest _ =>
    endsName_of_head rfl (by decide) rest
  refine ⟨_, whole.congr (by simp), ?_⟩
  rw [List.append_assoc, List.append_assoc]
  exact derivation.alternatives_index (Derives.literal key).single

theorem scans_key (name : String) :
    ∃ token : Token, token.memberName? = some name ∧
      Scans EndsName (propertyKey name) ('\r' ∉ name.toList) [token] := by
  unfold propertyKey
  split
  next plain =>
    have unbroken := identifier_unbroken plain
    exact ⟨.name name, rfl, (scans_name (isName_of_identifier plain)).congr (iff_of_true trivial unbroken)⟩
  · exact ⟨.literal name, rfl, (scans_quote name).mono fun _ _ => trivial⟩

theorem Written.member (name : String) (type : Written s unbroken (.alternatives alternatives)) :
    Written (propertyKey name ++ ": " ++ s) ('\r' ∉ name.toList ∧ unbroken)
      (.members [(name, ofAlternatives alternatives)]) := by
  obtain ⟨tokens, scanned, derivation⟩ := type
  obtain ⟨token, key, scannedKey⟩ := scans_key name
  have colon : Scans Anything ": " True [.mark .colon] := scans_fixed fun _ => rfl
  exact ⟨_, scannedKey.separated scanned colon (endsName_of_head rfl (by decide)), .oneMember key derivation⟩

theorem Written.object {fields : List (String × TypeTree)} (inside : Written s unbroken (.members fields)) :
    Written ("\x7b " ++ s ++ " \x7d") unbroken (.alternatives [[.object fields]]) := by
  obtain ⟨tokens, scanned, derivation⟩ := inside
  have before : Scans Anything "\x7b " True [.mark .brace] := scans_fixed fun _ => rfl
  have behind : Scans Anything " \x7d" True [.mark .braceEnd] := scans_fixed fun _ => rfl
  exact ⟨_, scanned.enclosed before behind (endsName_of_head rfl (by decide)), (Derives.object derivation).single⟩

theorem written_emptyObject : Written ("\x7b " ++ " \x7d") True (.alternatives [[.object []]]) := by
  have before : Scans Anything "\x7b " True [.mark .brace] := scans_fixed fun _ => rfl
  have behind : Scans EndsName " \x7d" True [.mark .braceEnd] := (scans_fixed fun _ => rfl).mono fun _ _ => trivial
  exact ⟨_, (before.append behind fun _ _ => trivial).congr and_self_iff, Derives.emptyObject.single⟩

section

variable {α : Type} {text : α → String} {whole : α → Prop} {p : α → Phrase} {q : List α → Phrase} {m : Mark}

theorem written_intercalate (between : Scans Anything separator True [.mark m])
    (apart : ∀ rest, EndsName (separator.toList ++ rest))
    (one : ∀ {a tokens}, Derives (p a) tokens → Derives (q [a]) tokens)
    (more : ∀ {a later tokens tokens'}, Derives (p a) tokens → Derives (q later) tokens' →
      Derives (q (a :: later)) (tokens ++ .mark m :: tokens'))
    {entries : List α} (some_entry : entries ≠ []) (each : ∀ a ∈ entries, Written (text a) (whole a) (p a)) :
    Written (separator.intercalate (entries.map text)) (∀ a ∈ entries, whole a) (q entries) := by
  induction entries with
  | nil => exact absurd rfl some_entry
  | cons a later ih =>
    obtain ⟨⟨tokens, scanned, derivation⟩, each⟩ := List.forall_mem_cons.mp each
    cases later with
    | nil => exact ⟨tokens, scanned.congr (by simp), one derivation⟩
    | cons b later =>
      obtain ⟨tokens', scanned', derivation'⟩ := ih (List.cons_ne_nil b later) each
      rw [List.map_cons, List.map_cons, String.intercalate_cons_cons]
      refine ⟨_, (scanned.separated scanned' between apart).congr (List.forall_mem_cons (l := b :: later)).symm, ?_⟩
      rw [List.append_assoc]
      exact more derivation derivation'

end

/-! ### Texts of types -/

namespace TypeExpr

theorem isName_keyword (k : Keyword) : IsName k.text := by
  cases k <;> exact isName_of_identifier (by decide)

theorem renderOperands_eq_map (ts : List TypeExpr) :
    renderOperands ts = ts.map fun t => if t.isWideUnion then "(" ++ t.render ++ ")" else t.render := by
  induction ts with
  | nil => rfl
  | cons t ts ih => rw [renderOperands, List.map_cons, ih]

section

variable {entries : List TypeExpr}

theorem written_union (some_entry : entries ≠ [])
    (each : ∀ t ∈ entries, Written t.render (t.Everywhere Unbroken) (.alternatives t.terms)) :
    Written (" | ".intercalate (entries.map render)) (∀ t ∈ entries, t.Everywhere Unbroken)
      (.alternatives (entries.map terms).flatten) :=
  written_intercalate (q := fun ts => .alternatives (ts.map terms).flatten) (scans_fixed fun _ => rfl)
    (endsName_of_head rfl (by decide)) (fun derivation => by simpa using derivation) Derives.alternatives_append
    some_entry each

theorem written_arguments (some_entry : entries ≠ [])
    (each : ∀ t ∈ entries, Written t.render (t.Everywhere Unbroken) (.alternatives t.terms)) :
    Written (", ".intercalate (entries.map render)) (∀ t ∈ entries, t.Everywhere Unbroken)
      (.arguments (entries.map reading)) :=
  written_intercalate (q := fun ts => .arguments (ts.map reading)) (scans_fixed fun _ => rfl)
    (endsName_of_head rfl (by decide)) .oneArgument .moreArguments some_entry each

theorem written_intersection (some_entry : entries ≠ [])
    (each : ∀ t ∈ entries, Written t.render (t.Everywhere Unbroken) (.alternatives t.terms)) :
    Written (" & ".intercalate (renderOperands entries)) (∀ t ∈ entries, t.Everywhere Unbroken)
      (.alternatives ((operandTerms entries).foldr meet [])) := by
  rw [renderOperands_eq_map, operandTerms_eq_map]
  refine written_intercalate (p := fun t => .alternatives t.operand)
    (q := fun ts => .alternatives ((ts.map operand).foldr meet [])) (scans_fixed fun _ => rfl)
    (endsName_of_head rfl (by decide)) (fun derivation => ?_) Derives.meet some_entry fun t listed => ?_
  · rwa [List.map_singleton, List.foldr_cons, List.foldr_nil, meet_nil]
  · unfold operand
    split
    · exact (each t listed).group
    · exact each t listed

theorem written_object (fields : List (String × TypeExpr))
    (each : ∀ f ∈ fields, Written f.2.render (f.2.Everywhere Unbroken) (.alternatives f.2.terms)) :
    Written (object fields).render (∀ f ∈ fields, '\r' ∉ f.1.toList ∧ f.2.Everywhere Unbroken)
      (.alternatives (object fields).terms) := by
  rw [render, renderFields_eq_map, terms]
  cases fields with
  | nil => exact written_emptyObject.congr (by simp)
  | cons f fields =>
    have semicolon : Scans Anything "; " True [.mark .semicolon] := scans_fixed fun _ => rfl
    have listed := written_intercalate (q := fun fields => .members (fieldTerms fields)) semicolon
      (endsName_of_head rfl (by decide)) id Derives.members_cons (List.cons_ne_nil f fields)
      fun g listed => (each g listed).member g.1
    exact listed.object

end

/-- A type with named references, with operands and with arguments is read as its terms. -/
theorem written (t : TypeExpr) (named : t.Named IsName) (filled : t.Everywhere Filled) :
    Written t.render (t.Everywhere Unbroken) (.alternatives t.terms) := by
  induction t using byChildren with
  | step t ih =>
    have inside (c : TypeExpr) (child : c ∈ t.children) :
        Written c.render (c.Everywhere Unbroken) (.alternatives c.terms) :=
      ih c child (named.inside c child) ((everywhere_iff.mp filled).2 c child)
    rw [everywhere_iff]
    cases t with
    | reference name => exact (written_name named).congr (by simp [Unbroken, children])
    | keyword k => exact (written_name (isName_keyword k)).congr (by simp [Unbroken, children])
    | literal s => exact (written_quote s).congr (by simp [Unbroken, children])
    | array item =>
      have text : "Array<" = "Array" ++ "<" := rfl
      have element := (inside item List.mem_cons_self).imp .oneArgument
      rw [render, text]
      exact (element.apply (isName_of_identifier (by decide))).congr (by simp [Unbroken, children])
    | union ts =>
      cases ts with
      | nil => exact (written_name (isName_keyword .never)).congr (by simp [Unbroken, children])
      | cons t ts =>
        rw [render, renderEach_eq_map, terms, termsEach_eq_map]
        exact (written_union (List.cons_ne_nil t ts) inside).congr (by simp [Unbroken, children])
    | object fields =>
      refine (written_object fields fun f listed => inside f.2 (List.mem_map_of_mem listed)).congr ?_
      simp only [Unbroken, children, List.forall_mem_map, forall_and]
    | record key value =>
      have text : "Record<" = "Record" ++ "<" := rfl
      have both := written_arguments (List.cons_ne_nil key [value]) inside
      rw [List.map_cons, List.map_singleton, String.intercalate_cons_cons, String.intercalate_singleton] at both
      have whole := both.apply (isName_of_identifier (s := "Record") (by decide))
      rw [render, text]
      simp only [String.append_assoc] at whole ⊢
      exact whole.congr (by simp [Unbroken, children])
    | intersection ts =>
      exact (written_intersection (everywhere_iff.mp filled).1 inside).congr (by simp [Unbroken, children])
    | generic name ts =>
      rw [render, renderEach_eq_map, terms, termsEach_eq_map, List.map_map]
      have listed := written_arguments (everywhere_iff.mp filled).1 inside
      exact (listed.apply named.1).congr (by simp [Unbroken, children])
    | indexed owner key =>
      exact ((inside owner List.mem_cons_self).index key).congr (by simp [Unbroken, children, and_comm])

/-- The text of such a type is read in one way, unless a carriage return in it keeps it from being read. -/
theorem reads_render {t : TypeExpr} (named : t.Named IsName) (filled : t.Everywhere Filled) {tree : TypeTree} :
    Reads t.render tree ↔ t.Everywhere Unbroken ∧ tree = t.reading := by
  obtain ⟨tokens, scanned, derivation⟩ := t.written named filled
  have nothing : EndsName [] := fun _ absent => by cases absent
  have own (unbroken : t.Everywhere Unbroken) : Reads t.render t.reading := by
    refine ⟨tokens, t.terms, ?_, derivation, rfl⟩
    have read := scanned.read unbroken [] nothing
    rwa [List.append_nil, scanTokens, Option.map_some, List.append_nil] at read
  refine ⟨fun reads => ?_, fun both => both.2 ▸ own both.1⟩
  by_cases unbroken : t.Everywhere Unbroken
  · exact ⟨unbroken, reads.unique (own unbroken)⟩
  · obtain ⟨_, _, scan, _⟩ := reads
    have refused := scanned.refused unbroken [] nothing
    rw [List.append_nil, scan] at refused
    cases refused

end TypeExpr

end EntityTypings.TypeScript
