import QueryKit.Proofs.Compile.Done
import QueryKit.Proofs.Condition.Canonical
import Mathlib.Data.List.Infix

/-!
# LIKE finds substrings

- `Wild`, `wilds?`: the items of a LIKE pattern whose escape character is the backslash.
- `matchesWilds`, `likeMatches`: whether a text matches a pattern.
- `wilds?_escaped`: an escaped text is a pattern without wildcards, which is the text itself.
- `likeMatches_contains`: an escaped text between percent signs matches the texts that contain it.
- `escape_eq_replacements`: escaping is the same as replacing the three characters one after the
  other, the backslash first.
- `Compiler.buildCondition_like`: a string among the patterns of a LIKE condition is bound as a
  pattern that matches the texts that contain the string.
-/

namespace QueryKit

/-! ## Patterns -/

/-- An item of a LIKE pattern: any text, any one character, or just one character. -/
inductive Wild where
  | any
  | one
  | just (c : Char)
deriving DecidableEq

/-- The items of a pattern. A backslash takes the wildcard out of the next character; there is no
pattern that ends with one. -/
def wilds? : List Char → Option (List Wild)
  | [] => some []
  | ['\\'] => none
  | '\\' :: c :: r => (wilds? r).map (.just c :: ·)
  | '%' :: r => (wilds? r).map (.any :: ·)
  | '_' :: r => (wilds? r).map (.one :: ·)
  | c :: r => (wilds? r).map (.just c :: ·)

def matchesWilds : List Wild → List Char → Bool
  | [], t => t.isEmpty
  | .just _ :: _, [] | .one :: _, [] => false
  | .just c :: ws, d :: t => c == d && matchesWilds ws t
  | .one :: ws, _ :: t => matchesWilds ws t
  | .any :: ws, t => t.tails.any (matchesWilds ws)

/-- Whether a text matches a pattern. -/
def likeMatches (pattern t : String) : Bool :=
  (wilds? pattern.toList).any fun ws => matchesWilds ws t.toList

example : likeMatches "%50\\%_off%" "now 50% off!" = true := by decide

/-! ## Escaped texts -/

namespace LikeEscape

/-- The pattern that matches the texts with `s` in them. -/
def contains (s : String) : String :=
  "%" ++ standard.apply s ++ "%"

theorem wilds?_standardChar (c : Char) (r : List Char) :
    wilds? (standardChar c ++ r) = (wilds? r).map (.just c :: ·) := by
  unfold standardChar
  split
  · rfl
  · next hc =>
    simp only [not_or] at hc
    simp [wilds?, hc]

theorem wilds?_escaped (s r : List Char) :
    wilds? (s.flatMap standardChar ++ r) = (wilds? r).map (s.map .just ++ ·) := by
  induction s with
  | nil => simp
  | cons c s ih =>
    rw [List.flatMap_cons, List.append_assoc, wilds?_standardChar, ih, Option.map_map]
    rfl

/-- Nothing in an escaped text is a wildcard, and it does not end with an open backslash. -/
theorem wilds?_apply_standard (s : String) :
    wilds? (standard.apply s).toList = some (s.toList.map .just) := by
  have h := wilds?_escaped s.toList []
  rw [List.append_nil, wilds?, Option.map_some, List.append_nil] at h
  rw [apply, String.toList_ofList, h]

theorem wilds?_contains (s : String) :
    wilds? (contains s).toList = some (.any :: (s.toList.map .just ++ [.any])) := by
  have h := wilds?_escaped s.toList ['%']
  rw [contains, apply]
  simp only [String.toList_append, String.toList_ofList, List.append_assoc]
  exact congrArg (Option.map (Wild.any :: ·)) h

/-- Different texts have different patterns. -/
theorem contains_inj {s t : String} (h : contains s = contains t) : s = t := by
  have hwilds := congrArg (fun p => wilds? p.toList) h
  simp only [wilds?_contains, Option.some.injEq, List.cons.injEq, true_and,
    List.append_cancel_right_eq] at hwilds
  have hjust : Function.Injective Wild.just := fun _ _ h => Wild.just.inj h
  exact String.toList_inj.mp (hjust.list_map hwilds)

/-- Escaping replaces the three characters one after the other. The backslashes come first: those
that are put in front of the others must not be doubled. -/
theorem escape_eq_replacements (s : String) :
    (standard.apply s).toList =
      Text.replaceChar '_' ['\\', '_']
        (Text.replaceChar '%' ['\\', '%'] (Text.replaceChar '\\' ['\\', '\\'] s.toList)) := by
  have hchar : ∀ c, standardChar c =
      Text.replaceChar '_' ['\\', '_']
        (Text.replaceChar '%' ['\\', '%'] (Text.replaceChar '\\' ['\\', '\\'] [c])) := by
    intro c
    by_cases hb : c = '\\'
    · rw [hb]
      rfl
    · by_cases hp : c = '%'
      · rw [hp]
        rfl
      · by_cases hu : c = '_'
        · rw [hu]
          rfl
        · simp [standardChar, Text.replaceChar, hb, hp, hu]
  rw [apply, String.toList_ofList, funext hchar]
  simp only [Text.replaceChar, List.flatMap_assoc, List.flatMap_cons, List.flatMap_nil,
    List.append_nil]

end LikeEscape

/-! ## Matching -/

theorem matchesWilds_any {ws : List Wild} {t : List Char} :
    matchesWilds (.any :: ws) t = true ↔ ∃ before r, t = before ++ r ∧ matchesWilds ws r = true := by
  rw [matchesWilds, List.any_eq_true]
  constructor
  · rintro ⟨r, hr, hmatch⟩
    obtain ⟨before, rfl⟩ := (List.mem_tails r t).mp hr
    exact ⟨before, r, rfl, hmatch⟩
  · rintro ⟨before, r, rfl, hmatch⟩
    exact ⟨r, (List.mem_tails r _).mpr ⟨before, rfl⟩, hmatch⟩

theorem matchesWilds_justs {s t : List Char} {ws : List Wild} :
    matchesWilds (s.map .just ++ ws) t = true ↔ ∃ r, t = s ++ r ∧ matchesWilds ws r = true := by
  induction s generalizing t with
  | nil => simp
  | cons c s ih =>
    cases t with
    | nil => simp [matchesWilds]
    | cons d t =>
      rw [List.map_cons, List.cons_append, matchesWilds, Bool.and_eq_true, beq_iff_eq, ih]
      constructor
      · rintro ⟨rfl, r, rfl, hmatch⟩
        exact ⟨r, rfl, hmatch⟩
      · rintro ⟨r, ht, hmatch⟩
        obtain ⟨rfl, rfl⟩ := List.cons.inj ht
        exact ⟨rfl, r, rfl, hmatch⟩

theorem likeMatches_contains (s t : String) :
    likeMatches (LikeEscape.contains s) t = true ↔ s.toList <:+: t.toList := by
  rw [likeMatches, LikeEscape.wilds?_contains, Option.any_some, matchesWilds_any]
  constructor
  · rintro ⟨before, r, ht, hmatch⟩
    obtain ⟨after, rfl, -⟩ := matchesWilds_justs.mp hmatch
    exact ⟨before, after, by rw [ht, List.append_assoc]⟩
  · rintro ⟨before, after, ht⟩
    refine ⟨before, s.toList ++ after, by rw [← ht, List.append_assoc], ?_⟩
    exact matchesWilds_justs.mpr ⟨after, rfl, matchesWilds_any.mpr ⟨after, [], by simp, rfl⟩⟩

/-! ## LIKE conditions -/

/-- The patterns of a LIKE condition: the items of a list, or a single value that is not blank. -/
def Operand.patterns : Operand → List Operand
  | .list items => items
  | .value (.array vs) => vs.map .value
  | o => if o.isEmpty then [] else [o]

theorem Operand.patterns_of_isEmpty {values : Operand} (h : values.isEmpty = true) :
    values.patterns = [] := by
  unfold patterns
  split
  · exact List.isEmpty_iff.mp h
  · next vs =>
    have hvs : vs = [] := List.isEmpty_iff.mp h
    rw [hvs, List.map_nil]
  · exact if_pos h

section Render

variable {c : Compiler} {escape : LikeEscape}

/-- One pattern in its place. -/
def renderPattern (c : Compiler) (escape : LikeEscape) : Operand → Compile String
  | .expr e => renderExpression c e
  | .value v => pushPattern escape v
  | _ => .fault .likePattern

theorem renderPatternList_eq_mapM : ∀ os : List Operand,
    renderPatternList c escape os = os.mapM (renderPattern c escape)
  | [] => by
    rw [renderPatternList, List.mapM_nil]
    rfl
  | o :: os => by
    rw [List.mapM_cons, ← renderPatternList_eq_mapM os]
    cases o with
    | value _ | expr _ =>
      rw [renderPatternList]
      rfl
    | list _ | map _ =>
      rw [renderPatternList]
      · rfl
      · exact nofun
      · exact nofun

theorem pushPatterns_eq_mapM : ∀ vs : List Value,
    pushPatterns escape vs = (vs.map Operand.value).mapM (renderPattern c escape)
  | [] => rfl
  | v :: vs => by
    rw [List.map_cons, List.mapM_cons, pushPatterns, pushPatterns_eq_mapM vs]
    rfl

/-- What is not empty is rendered pattern by pattern. -/
theorem renderPatterns_eq_mapM {values : Operand} (h : values.isEmpty = false) :
    renderPatterns c escape values = values.patterns.mapM (renderPattern c escape) := by
  have hone : ∀ o : Operand, o.isEmpty = false → (if o.isEmpty then [] else [o]) = [o] :=
    fun o ho => if_neg (by simp [ho])
  cases values with
  | list items =>
    simp only [renderPatterns, Operand.patterns]
    exact renderPatternList_eq_mapM items
  | value v =>
    cases v with
    | array vs =>
      simp only [renderPatterns]
      exact pushPatterns_eq_mapM vs
    | _ =>
      simp only [renderPatterns, Operand.patterns]
      rw [hone _ h, List.mapM_cons, List.mapM_nil]
      rfl
  | expr e =>
    simp only [renderPatterns, Operand.patterns]
    rw [hone _ h, List.mapM_cons, List.mapM_nil]
    rfl
  | map entries =>
    simp only [renderPatterns, Operand.patterns]
    rw [hone _ h, List.mapM_cons, List.mapM_nil]
    rfl

end Render

variable {d : Dialect} {column values : Operand} {negated : Bool} {combine : Conjunction}
  {escape : LikeEscape}

/-- A LIKE condition whose column and patterns compile. -/
theorem renderCondition_like {text : String} {places : List String} {bs cs : List Binding}
    (hne : values.patterns ≠ [])
    (hcolumn : renderOperand (.ofDialect d) .column column = .ok (text, bs))
    (hplaces : values.patterns.mapM (renderPattern (.ofDialect d) escape) = .ok (places, cs)) :
    renderCondition (.ofDialect d) (.like column negated combine values escape) =
      .ok (likeText d text negated combine places, bs ++ cs) := by
  have hfull : values.isEmpty = false := by
    rw [← Bool.not_eq_true]
    exact fun he => hne (Operand.patterns_of_isEmpty he)
  rw [renderCondition, Compiler.like, Compiler.through_condition d rfl, hfull, if_neg (by decide),
    renderPatterns_eq_mapM hfull]
  exact Compile.bind_eq_ok hcolumn (Compile.bind_pure_eq_ok _ hplaces)

/-- A string among the patterns of a LIKE condition is bound as a pattern that matches exactly the
texts with the string in them: the string between percent signs, with the backslash, the percent
sign and the underscore escaped. Different strings have different patterns. -/
theorem Compiler.buildCondition_like (d : Dialect) (ps : Params) {o : Operand}
    {before after : List Operand} {s text : String} {xs ys : List String}
    {bs cs ds : List Binding}
    (ho : o.Denotes (.like column negated combine values .standard))
    (hvalues : values.patterns = before ++ .string s :: after)
    (hcolumn : renderOperand (.ofDialect d) .column column = .ok (text, bs))
    (hbefore : before.mapM (renderPattern (.ofDialect d) .standard) = .ok (xs, cs))
    (hafter : after.mapM (renderPattern (.ofDialect d) .standard) = .ok (ys, ds)) :
    (ofDialect d).buildCondition o ps =
        .ok (likeText d text negated combine (xs ++ "?" :: ys),
          ps.bindAll (bs ++
            (cs ++ ⟨.positional, .ofValue (.string (LikeEscape.contains s))⟩ :: ds))) ∧
      (LikeEscape.standard.apply s).toList =
        Text.replaceChar '_' ['\\', '_']
          (Text.replaceChar '%' ['\\', '%'] (Text.replaceChar '\\' ['\\', '\\'] s.toList)) ∧
      wilds? (LikeEscape.standard.apply s).toList = some (s.toList.map .just) ∧
      (∀ t, likeMatches (LikeEscape.contains s) t = true ↔ s.toList <:+: t.toList) ∧
      ∀ s', LikeEscape.contains s' = LikeEscape.contains s → s' = s := by
  have hplace : renderPattern (.ofDialect d) .standard (.string s) =
      .ok ("?", [⟨.positional, .ofValue (.string (LikeEscape.contains s))⟩]) := rfl
  have hplaces := Compile.mapM_middle hbefore hplace hafter
  rw [← hvalues] at hplaces
  have hne : values.patterns ≠ [] := by
    rw [hvalues]
    simp
  refine ⟨?_, LikeEscape.escape_eq_replacements s, LikeEscape.wilds?_apply_standard s,
    likeMatches_contains s, fun _ => LikeEscape.contains_inj⟩
  rw [buildCondition, ho.render, renderCondition_like hne hcolumn hplaces]
  rfl

/-- Offers with one of two texts in their names, of which one is computed. -/
def offers : Operand :=
  .list [.string "or like", .string "name",
    .list [.string "50%_\\", .expr (.text "CONCAT('%', code)")]]

theorem offers_like :
    offers.Denotes (.like (.string "name") false .or
        (.list [.string "50%_\\", .expr (.text "CONCAT('%', code)")]) .standard) ∧
      (Compiler.ofDialect .sqlite).buildCondition offers .empty =
        .ok ("`name` LIKE ? ESCAPE '\\' OR `name` LIKE CONCAT('%', code) ESCAPE '\\'",
          Params.empty.bindAll
            [⟨.positional, .ofValue (.string (LikeEscape.contains "50%_\\"))⟩]) ∧
      (LikeEscape.standard.apply "50%_\\").toList =
        Text.replaceChar '_' ['\\', '_'] (Text.replaceChar '%' ['\\', '%']
          (Text.replaceChar '\\' ['\\', '\\'] "50%_\\".toList)) ∧
      wilds? (LikeEscape.standard.apply "50%_\\").toList = some ("50%_\\".toList.map .just) ∧
      (∀ t, likeMatches (LikeEscape.contains "50%_\\") t = true ↔
        "50%_\\".toList <:+: t.toList) ∧
      ∀ s', LikeEscape.contains s' = LikeEscape.contains "50%_\\" → s' = "50%_\\" := by
  have ho : offers.Denotes (.like (.string "name") false .or
      (.list [.string "50%_\\", .expr (.text "CONCAT('%', code)")]) .standard) := .inl rfl
  have hvalues : (Operand.list [.string "50%_\\", .expr (.text "CONCAT('%', code)")]).patterns =
      [] ++ .string "50%_\\" :: [.expr (.text "CONCAT('%', code)")] := rfl
  have hcolumn : renderOperand (.ofDialect .sqlite) .column (.string "name") =
      .ok ("`name`", []) := rfl
  have hbefore : [].mapM (renderPattern (.ofDialect .sqlite) .standard) = .ok ([], []) := rfl
  have hafter : [Operand.expr (.text "CONCAT('%', code)")].mapM
      (renderPattern (.ofDialect .sqlite) .standard) = .ok (["CONCAT('%', code)"], []) := rfl
  exact ⟨ho, Compiler.buildCondition_like .sqlite .empty ho hvalues hcolumn hbefore hafter⟩

end QueryKit
