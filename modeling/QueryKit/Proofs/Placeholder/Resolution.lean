import QueryKit.Proofs.Params.Edits
import QueryKit.Proofs.Placeholder.Holes

/-!
# Values in the places of placeholders

- `Slot`, `Params.slots`: the final text as characters that are kept and places of values. The slots
  do not depend on what is written in the places.
- `Params.bindSql_eq`: a statement is written slot by slot, or a `?` is left without a value.
- `Params.bindSqlM`: binding with an `emit` that has effects. It is asked for one value after the
  other (`Params.writeM_eq`).
- `Params.spend`: the entries that are left when the first positional ones are taken.
- `Params.bindSql_append`: a text in two parts, the first of which ends with a blank outside quotes,
  is resolved part by part.
-/

namespace QueryKit

open Scan

/-! ## Slots -/

/-- A part of a statement whose placeholders are resolved: a character that is kept, or the place of
a value. -/
inductive Slot where
  | kept (c : Char)
  | value (p : Param)

namespace Slot

/-- The value that stands in a slot. -/
def value? : Slot → Option Param
  | .kept _ => none
  | .value p => some p

end Slot

namespace Params

/-- The slots of a text, as far as there are positional values. -/
def slots (ps : Params) : List Piece → List Param → List Slot
  | [], _ => []
  | .verbatim c :: pieces, left => .kept c :: ps.slots pieces left
  | .positional :: _, [] => []
  | .positional :: pieces, p :: left => .value p :: ps.slots pieces left
  | .named name :: pieces, left =>
    match ps.named (String.ofList name) with
    | some p => .value p :: ps.slots pieces left
    | none => (':' :: name).map .kept ++ ps.slots pieces left

/-- The values of slots in their order. -/
def valuesOf (ss : List Slot) : List Param :=
  ss.filterMap Slot.value?

/-- The text of slots, the places counted from `n`. -/
def write (emit : Param → Nat → String) : Nat → List Slot → List Char
  | _, [] => []
  | n, .kept c :: ss => c :: write emit n ss
  | n, .value p :: ss => (emit p n).toList ++ write emit (n + 1) ss

variable {ps qs : Params} {emit emit' : Param → Nat → String} {n k : Nat} {cs : List Char}
  {ss ts : List Slot} {left : List Param} {pieces pieces' : List Piece}

theorem valuesOf_append : valuesOf (ss ++ ts) = valuesOf ss ++ valuesOf ts :=
  List.filterMap_append

theorem valuesOf_kept : valuesOf (cs.map .kept) = [] := by
  simp [valuesOf, Slot.value?]

theorem write_append : write emit n (ss ++ ts) =
    write emit n ss ++ write emit (n + (valuesOf ss).length) ts := by
  induction ss generalizing n with
  | nil => rfl
  | cons s ss ih =>
    cases s with
    | kept c => exact congrArg (c :: ·) ih
    | value p =>
      have hlength : (valuesOf (.value p :: ss)).length = 1 + (valuesOf ss).length :=
        Nat.add_comm _ _
      rw [List.cons_append, write, write, ih, List.append_assoc, hlength, Nat.add_assoc]

theorem write_kept : write emit n (cs.map .kept) = cs := by
  induction cs with
  | nil => rfl
  | cons c cs ih => exact congrArg (c :: ·) ih

/-- Only the places from `n` on matter. -/
theorem write_congr (h : ∀ p k, n ≤ k → emit p k = emit' p k) :
    write emit n ss = write emit' n ss := by
  induction ss generalizing n with
  | nil => rfl
  | cons s ss ih =>
    cases s with
    | kept c => exact congrArg (c :: ·) (ih h)
    | value p =>
      rw [write, write, h p n (Nat.le_refl n), ih fun p k hk => h p k (Nat.le_of_succ_le hk)]

/-- Counting may begin anywhere. -/
theorem write_shift : write emit (k + n) ss = write (fun p j => emit p (k + j)) n ss := by
  induction ss generalizing n with
  | nil => rfl
  | cons s ss ih =>
    cases s with
    | kept c => exact congrArg (c :: ·) ih
    | value p => rw [write, write, Nat.add_assoc, ih]

/-- A statement is written slot by slot if there is a value for each place. -/
theorem fillPieces_eq (emit : Param → Nat → String) (ps : Params) :
    ∀ (pieces : List Piece) (left : List Param) (n : Nat), ps.fillPieces emit pieces left n =
      if pieces.count .positional ≤ left.length then
        some (write emit n (ps.slots pieces left), valuesOf (ps.slots pieces left))
      else none
  | [], left, n => by simp [fillPieces, slots, write, valuesOf]
  | .verbatim c :: pieces, left, n => by
    rw [fillPieces, fillPieces_eq emit ps pieces left n, List.count_cons_of_ne (by simp)]
    split <;> rfl
  | .positional :: pieces, [], n => by simp [fillPieces]
  | .positional :: pieces, p :: left, n => by
    rw [fillPieces, fillPieces_eq emit ps pieces left (n + 1), List.count_cons_self,
      List.length_cons]
    simp only [Nat.add_le_add_iff_right]
    split <;> rfl
  | .named name :: pieces, left, n => by
    rw [fillPieces, slots, List.count_cons_of_ne (by simp)]
    cases ps.named (String.ofList name) with
    | some p =>
      dsimp only
      rw [fillPieces_eq emit ps pieces left (n + 1)]
      split <;> rfl
    | none =>
      dsimp only
      rw [fillPieces_eq emit ps pieces left n, write_append, write_kept, valuesOf_append,
        valuesOf_kept]
      split <;> rfl

/-- The slots depend on the values of the names and on the positional values only. -/
theorem slots_congr (h : ∀ name, ps.named name = qs.named name) :
    ∀ (pieces : List Piece) (left : List Param), ps.slots pieces left = qs.slots pieces left
  | [], _ => rfl
  | .verbatim c :: pieces, left => congrArg (_ :: ·) (slots_congr h pieces left)
  | .positional :: _, [] => rfl
  | .positional :: pieces, p :: left => congrArg (_ :: ·) (slots_congr h pieces left)
  | .named name :: pieces, left => by rw [slots, slots, h, slots_congr h pieces left]

/-- Pieces behind others take the positional values that those have left. -/
theorem slots_append (ps : Params) (pieces' : List Piece) :
    ∀ (pieces : List Piece) (left : List Param), pieces.count .positional ≤ left.length →
      ps.slots (pieces ++ pieces') left =
        ps.slots pieces left ++ ps.slots pieces' (left.drop (pieces.count .positional))
  | [], _, _ => rfl
  | .verbatim c :: pieces, left, h => by
    rw [List.count_cons_of_ne (by simp)] at h ⊢
    exact congrArg (_ :: ·) (slots_append ps pieces' pieces left h)
  | .positional :: pieces, [], h => by simp at h
  | .positional :: pieces, p :: left, h => by
    rw [List.count_cons_self] at h ⊢
    exact congrArg (_ :: ·) (slots_append ps pieces' pieces left (Nat.le_of_succ_le_succ h))
  | .named name :: pieces, left, h => by
    rw [List.count_cons_of_ne (by simp)] at h ⊢
    rw [List.cons_append, slots, slots, slots_append ps pieces' pieces left h]
    cases ps.named (String.ofList name) with
    | some p => rfl
    | none => exact (List.append_assoc _ _ _).symm

/-- Where no name is bound and a `?` is written in each place, the text is what it was. -/
theorem write_slots_of_unnamed (h : ∀ name, ps.named name = none) :
    ∀ (pieces : List Piece) (left : List Param) (n : Nat), pieces.count .positional ≤ left.length →
      write (fun _ _ => "?") n (ps.slots pieces left) = pieces.flatMap Piece.written
  | [], _, _, _ => rfl
  | .verbatim c :: pieces, left, n, hcount => by
    rw [List.count_cons_of_ne (by simp)] at hcount
    exact congrArg (c :: ·) (write_slots_of_unnamed h pieces left n hcount)
  | .positional :: pieces, [], _, hcount => by simp at hcount
  | .positional :: pieces, p :: left, n, hcount => by
    rw [List.count_cons_self] at hcount
    have hrest := write_slots_of_unnamed h pieces left (n + 1) (Nat.le_of_succ_le_succ hcount)
    rw [slots, write, hrest]
    rfl
  | .named name :: pieces, left, n, hcount => by
    rw [List.count_cons_of_ne (by simp)] at hcount
    rw [slots, h]
    dsimp only
    rw [write_append, write_kept, valuesOf_kept, List.flatMap_cons]
    exact congrArg (_ ++ ·) (write_slots_of_unnamed h pieces left n hcount)

/-! ## Statements -/

/-- The slots of a statement. -/
def slotsOf (ps : Params) (sql : String) (escapes : Bool) : List Slot :=
  ps.slots (Scan.pieces escapes sql) ps.positional

variable {sql s t : String} {escapes : Bool}

/-- A statement is written slot by slot if there is a value for each `?` outside quotes. -/
theorem bindSql_eq (emit : Param → Nat → String) : ps.bindSql sql escapes emit =
    if holes escapes none sql.toList ≤ ps.positional.length then
      .ok (String.ofList (write emit 1 (ps.slotsOf sql escapes)), valuesOf (ps.slotsOf sql escapes))
    else .error (.invalidArgument (.missingParameter sql)) := by
  rw [bindSql, fillPieces_eq, count_pieces_eq]
  by_cases h : holes escapes none sql.toList ≤ ps.positional.length
  · rw [if_pos h, if_pos h]
    rfl
  · rw [if_neg h, if_neg h]

theorem bindSql_of_le (h : holes escapes none sql.toList ≤ ps.positional.length) :
    ps.bindSql sql escapes emit =
      .ok (String.ofList (write emit 1 (ps.slotsOf sql escapes)), valuesOf (ps.slotsOf sql escapes)) :=
  (bindSql_eq emit).trans (if_pos h)

theorem bindSql_of_lt (h : ps.positional.length < holes escapes none sql.toList) :
    ps.bindSql sql escapes emit = .error (.invalidArgument (.missingParameter sql)) :=
  (bindSql_eq emit).trans (if_neg (Nat.not_le.mpr h))

theorem bindSql_error_iff : (∃ e, ps.bindSql sql escapes emit = .error e) ↔
    ps.positional.length < holes escapes none sql.toList := by
  constructor
  · rintro ⟨e, he⟩
    by_contra h
    rw [bindSql_of_le (Nat.not_lt.mp h)] at he
    cases he
  · exact fun h => ⟨_, bindSql_of_lt h⟩

theorem bindSql_ok_iff {text : String} {bound : List Param} :
    ps.bindSql sql escapes emit = .ok (text, bound) ↔
      holes escapes none sql.toList ≤ ps.positional.length ∧
        String.ofList (write emit 1 (ps.slotsOf sql escapes)) = text ∧
        valuesOf (ps.slotsOf sql escapes) = bound := by
  rw [bindSql_eq]
  split
  · next h => simp [h]
  · next h => simp [h]

/-! ## Asking for the texts -/

section Ask

variable {m : Type → Type} [Monad m]

/-- Put values in the place of placeholders as they come, asking `emit` for each. -/
def fillPiecesM (emit : Param → Nat → m String) (ps : Params) :
    List Piece → List Param → Nat → m (Option (List Char × List Param))
  | [], _, _ => pure (some ([], []))
  | .verbatim c :: pieces, left, n => do
    let rest ← fillPiecesM emit ps pieces left n
    return rest.map fun (text, bound) => (c :: text, bound)
  | .positional :: _, [], _ => pure none
  | .positional :: pieces, p :: left, n => do
    let answer ← emit p n
    let rest ← fillPiecesM emit ps pieces left (n + 1)
    return rest.map fun (text, bound) => (answer.toList ++ text, p :: bound)
  | .named name :: pieces, left, n =>
    match ps.named (String.ofList name) with
    | some p => do
      let answer ← emit p n
      let rest ← fillPiecesM emit ps pieces left (n + 1)
      return rest.map fun (text, bound) => (answer.toList ++ text, p :: bound)
    | none => do
      let rest ← fillPiecesM emit ps pieces left n
      return rest.map fun (text, bound) => (':' :: (name ++ text), bound)

/-- Resolve the placeholders of a statement with an `emit` that has effects. -/
def bindSqlM (ps : Params) (sql : String) (escapes : Bool) (emit : Param → Nat → m String) :
    m (Result (String × List Param)) := do
  match ← ps.fillPiecesM emit (Scan.pieces escapes sql) ps.positional 1 with
  | some (text, bound) => return .ok (String.ofList text, bound)
  | none => return .error (.invalidArgument (.missingParameter sql))

/-- The text of slots, asking `emit` for each value. -/
def writeM (emit : Param → Nat → m String) : Nat → List Slot → m (List Char)
  | _, [] => pure []
  | n, .kept c :: ss => do
    let text ← writeM emit n ss
    return c :: text
  | n, .value p :: ss => do
    let answer ← emit p n
    let text ← writeM emit (n + 1) ss
    return answer.toList ++ text

variable [LawfulMonad m]

theorem writeM_kept (emit : Param → Nat → m String) :
    writeM emit n (cs.map .kept ++ ss) = (do
      let text ← writeM emit n ss
      return cs ++ text) := by
  induction cs with
  | nil => exact (bind_pure _).symm
  | cons c cs ih =>
    rw [List.map_cons, List.cons_append, writeM, ih, bind_assoc]
    simp only [pure_bind]
    rfl

theorem fillPiecesM_eq (emit : Param → Nat → m String) (ps : Params) :
    ∀ (pieces : List Piece) (left : List Param) (n : Nat), ps.fillPiecesM emit pieces left n = (do
      let text ← writeM emit n (ps.slots pieces left)
      return if pieces.count .positional ≤ left.length then
        some (text, valuesOf (ps.slots pieces left)) else none)
  | [], left, n => by simp [fillPiecesM, slots, writeM, valuesOf]
  | .verbatim c :: pieces, left, n => by
    rw [fillPiecesM, fillPiecesM_eq emit ps pieces left n, slots, writeM,
      List.count_cons_of_ne (by simp)]
    simp only [bind_assoc, pure_bind]
    split <;> rfl
  | .positional :: pieces, [], n => by simp [fillPiecesM, slots, writeM]
  | .positional :: pieces, p :: left, n => by
    rw [fillPiecesM, slots, writeM, List.count_cons_self, List.length_cons]
    simp only [fillPiecesM_eq emit ps pieces left (n + 1), bind_assoc, pure_bind,
      Nat.add_le_add_iff_right]
    split <;> rfl
  | .named name :: pieces, left, n => by
    rw [fillPiecesM, slots, List.count_cons_of_ne (by simp)]
    cases ps.named (String.ofList name) with
    | some p =>
      simp only [writeM, fillPiecesM_eq emit ps pieces left (n + 1), bind_assoc, pure_bind]
      split <;> rfl
    | none =>
      simp only [writeM_kept, fillPiecesM_eq emit ps pieces left n, bind_assoc, pure_bind,
        valuesOf_append, valuesOf_kept, List.nil_append]
      split <;> rfl

/-- The texts are asked for one after the other, each with its value and its place. -/
theorem writeM_eq (emit : Param → Nat → m String) :
    writeM emit n ss = (do
      let answers ← ((valuesOf ss).zipIdx n).mapM fun call => emit call.1 call.2
      return write (fun _ k => answers.getD (k - n) "") n ss) := by
  induction ss generalizing n with
  | nil => simp [writeM, write, valuesOf]
  | cons s ss ih =>
    cases s with
    | kept c =>
      rw [writeM, ih]
      simp only [bind_assoc, pure_bind]
      rfl
    | value p =>
      have hwrite : ∀ (answer : String) (answers : List String),
          write (fun _ k => (answer :: answers).getD (k - n) "") n (.value p :: ss) =
            answer.toList ++ write (fun _ k => answers.getD (k - (n + 1)) "") (n + 1) ss := by
        intro answer answers
        rw [write, Nat.sub_self]
        refine congrArg (_ ++ ·) (write_congr fun _ k hk => ?_)
        rw [← Nat.sub_add_cancel (Nat.sub_pos_of_lt hk), Nat.sub_sub, List.getD_cons_succ]
      have hvalues : (valuesOf (.value p :: ss)).zipIdx n =
          (p, n) :: (valuesOf ss).zipIdx (n + 1) := rfl
      rw [writeM, hvalues, List.mapM_cons]
      simp only [ih, bind_assoc, pure_bind, hwrite]

theorem bindSqlM_eq (emit : Param → Nat → m String) :
    ps.bindSqlM sql escapes emit = (do
      let answers ← ((valuesOf (ps.slotsOf sql escapes)).zipIdx 1).mapM fun call =>
        emit call.1 call.2
      return ps.bindSql sql escapes fun _ k => answers.getD (k - 1) "") := by
  rw [bindSqlM, fillPiecesM_eq, ← slotsOf, writeM_eq]
  simp only [bind_assoc, pure_bind, bindSql_eq, count_pieces_eq]
  split <;> rfl

end Ask

theorem writeM_id (emit : Param → Nat → String) : writeM (m := Id) emit n ss = write emit n ss := by
  induction ss generalizing n with
  | nil => rfl
  | cons s ss ih =>
    cases s with
    | kept c => exact congrArg (c :: ·) ih
    | value p => exact congrArg (_ ++ ·) ih

/-- Without effects, it does not matter in which order the texts are asked for. -/
theorem bindSqlM_id (emit : Param → Nat → String) :
    ps.bindSqlM (m := Id) sql escapes emit = ps.bindSql sql escapes emit := by
  rw [bindSqlM, fillPiecesM_eq, writeM_id, bindSql, fillPieces_eq]
  rfl

/-! ## Texts in two parts -/

/-- The entries that are left when the first `k` positional ones are taken. -/
def spendEntries : Nat → List (ParamKey × Param) → List (ParamKey × Param)
  | 0, es => es
  | _ + 1, [] => []
  | k + 1, (.positional, _) :: es => spendEntries k es
  | k + 1, (.named name, p) :: es => (.named name, p) :: spendEntries (k + 1) es

/-- The accumulator when the first `k` positional values are taken. -/
def spend (k : Nat) (ps : Params) : Params :=
  ⟨spendEntries k ps.entries⟩

theorem positional_spendEntries : ∀ (k : Nat) (es : List (ParamKey × Param)),
    (⟨spendEntries k es⟩ : Params).positional = (⟨es⟩ : Params).positional.drop k
  | 0, es => by rw [spendEntries, List.drop_zero]
  | _ + 1, [] => rfl
  | k + 1, (.positional, _) :: es => positional_spendEntries k es
  | k + 1, (.named _, _) :: es => positional_spendEntries (k + 1) es

theorem lookup_spendEntries (name : String) : ∀ (k : Nat) (es : List (ParamKey × Param)),
    (spendEntries k es).lookup (.named name) = es.lookup (.named name)
  | 0, es => by rw [spendEntries]
  | _ + 1, [] => rfl
  | k + 1, (.positional, p) :: es => by
    rw [spendEntries, lookup_cons_if, if_neg nofun, lookup_spendEntries name k es]
  | k + 1, (.named n, p) :: es => by
    rw [spendEntries, lookup_cons_if, lookup_cons_if, lookup_spendEntries name (k + 1) es]

theorem slotsOf_append (hlast : s.toList.getLast? = some ' ')
    (hout : behind escapes none s.toList = none)
    (h : holes escapes none s.toList ≤ ps.positional.length) :
    ps.slotsOf (s ++ t) escapes =
      ps.slotsOf s escapes ++ (ps.spend (holes escapes none s.toList)).slotsOf t escapes := by
  have hplain := scan_blank hlast hout
  have hsettled : Settled (scan escapes .plain s.toList).2 := by
    rw [hplain]
    trivial
  have hs : Scan.pieces escapes s = (scan escapes .plain s.toList).1 := by
    rw [Scan.pieces, run_eq_scan, finish_settled hsettled, List.append_nil]
  have hst : Scan.pieces escapes (s ++ t) = Scan.pieces escapes s ++ Scan.pieces escapes t := by
    rw [hs, Scan.pieces, String.toList_append, run_append, hplain]
    rfl
  have hcount := count_pieces_eq escapes s
  rw [slotsOf, hst, slots_append _ _ _ _ (hcount ▸ h), hcount]
  have hleft : (ps.spend (holes escapes none s.toList)).positional =
      ps.positional.drop (holes escapes none s.toList) := positional_spendEntries _ _
  rw [slotsOf, slotsOf, hleft]
  exact congrArg (_ ++ ·) (slots_congr (fun name => (lookup_spendEntries _ _ _).symm) _ _)

/-- A text in two parts is resolved part by part if the first part ends with a blank outside quotes:
the second part takes the positional values that the first has left, and the places go on. -/
theorem bindSql_append (hlast : s.toList.getLast? = some ' ')
    (hout : behind escapes none s.toList = none) (emit : Param → Nat → String) :
    ps.bindSql (s ++ t) escapes emit =
      match ps.bindSql s escapes emit with
      | .error _ => .error (.invalidArgument (.missingParameter (s ++ t)))
      | .ok (text, bound) =>
        match (ps.spend (holes escapes none s.toList)).bindSql t escapes
            fun p n => emit p (bound.length + n) with
        | .error _ => .error (.invalidArgument (.missingParameter (s ++ t)))
        | .ok (text', bound') => .ok (text ++ text', bound ++ bound') := by
  have hholes : holes escapes none (s ++ t).toList =
      holes escapes none s.toList + holes escapes none t.toList := by
    rw [String.toList_append, holes_append, hout]
  have hleft : (ps.spend (holes escapes none s.toList)).positional.length =
      ps.positional.length - holes escapes none s.toList := by
    rw [← List.length_drop]
    exact congrArg List.length (positional_spendEntries _ _)
  by_cases hs : holes escapes none s.toList ≤ ps.positional.length
  · rw [bindSql_of_le hs]
    dsimp only
    by_cases ht : holes escapes none t.toList ≤
        (ps.spend (holes escapes none s.toList)).positional.length
    · rw [bindSql_of_le ht, bindSql_of_le (by omega), slotsOf_append hlast hout hs, write_append,
        valuesOf_append, String.ofList_append, Nat.add_comm 1, write_shift]
    · rw [bindSql_of_lt (Nat.not_le.mp ht), bindSql_of_lt (by omega)]
  · rw [bindSql_of_lt (Nat.not_le.mp hs), bindSql_of_lt (by omega)]

/-! ## Binding -/

theorem named_of_names_eq_nil (h : ps.names = []) (name : String) : ps.named name = none := by
  rw [named, List.lookup_eq_none_iff]
  intro e he
  rw [bne_iff_ne]
  intro hkey
  have hmem : bareName name ∈ ps.names := mem_names.mpr (hkey ▸ List.mem_map_of_mem he)
  rw [h] at hmem
  cases hmem

/-- The text that binding gives is that of the statement with a text of `emit` in each place. Whether
there is one and which values are bound does not depend on `emit`, which is asked for the bound
values in their order with the places 1, 2, … Without names, `?` in each place gives the statement
again. There is no text if and only if there are more `?` outside quotes than positional values. A
statement in two parts, the first of which ends with a blank outside quotes, is resolved part by
part. -/
theorem bindSql_resolution (ps : Params) (sql : String) (escapes : Bool) :
    (∀ emit emit', (ps.bindSql sql escapes emit).map Prod.snd =
      (ps.bindSql sql escapes emit').map Prod.snd) ∧
    (∃ calls : List (Param × Nat), calls.map Prod.snd = List.range' 1 calls.length ∧
      (∀ emit text bound, ps.bindSql sql escapes emit = .ok (text, bound) →
        calls.map Prod.fst = bound) ∧
      (∀ emit, ps.bindSqlM (m := Id) sql escapes emit = ps.bindSql sql escapes emit) ∧
      ∀ (m : Type → Type) [Monad m] [LawfulMonad m] (emit : Param → Nat → m String),
        ps.bindSqlM sql escapes emit = (do
          let answers ← calls.mapM fun call => emit call.1 call.2
          return ps.bindSql sql escapes fun _ n => answers.getD (n - 1) "")) ∧
    (ps.names = [] → ∀ text bound, ps.bindSql sql escapes (fun _ _ => "?") = .ok (text, bound) →
      text = sql) ∧
    (∀ emit, (∃ e, ps.bindSql sql escapes emit = .error e) ↔
      ps.positional.length < holes escapes none sql.toList) ∧
    (∀ s t : String, sql = s ++ t → s.toList.getLast? = some ' ' →
      behind escapes none s.toList = none → ∀ emit,
      ps.bindSql sql escapes emit =
        match ps.bindSql s escapes emit with
        | .error _ => .error (.invalidArgument (.missingParameter sql))
        | .ok (text, bound) =>
          match (ps.spend (holes escapes none s.toList)).bindSql t escapes
              fun p n => emit p (bound.length + n) with
          | .error _ => .error (.invalidArgument (.missingParameter sql))
          | .ok (text', bound') => .ok (text ++ text', bound ++ bound')) := by
  refine ⟨fun emit emit' => ?_, ⟨(valuesOf (ps.slotsOf sql escapes)).zipIdx 1, ?_, ?_,
    fun emit => bindSqlM_id emit, fun m _ _ emit => bindSqlM_eq emit⟩, ?_,
    fun emit => bindSql_error_iff, ?_⟩
  · rw [bindSql_eq emit, bindSql_eq emit']
    split <;> rfl
  · rw [List.zipIdx_map_snd, List.length_zipIdx]
  · intro emit text bound h
    rw [List.zipIdx_map_fst]
    exact (bindSql_ok_iff.mp h).2.2
  · intro hnames text bound h
    obtain ⟨hle, htext, -⟩ := bindSql_ok_iff.mp h
    have hwritten := write_slots_of_unnamed (named_of_names_eq_nil hnames)
      (Scan.pieces escapes sql) ps.positional 1 (count_pieces_eq escapes sql ▸ hle)
    rw [Scan.pieces, run_written] at hwritten
    rw [← htext, slotsOf, Scan.pieces, hwritten]
    exact String.ofList_toList
  · rintro s t rfl hlast hout emit
    exact bindSql_append hlast hout emit

/-- Two ages and a name. -/
def agesAndName : Params :=
  ⟨[(.positional, .ofValue (.int32 18)), (.named "name", .ofValue (.string "x")),
    (.positional, .ofValue (.int32 65))]⟩

/-- The name in the second part takes the third place, and the quoted `?` takes none. -/
theorem agesAndName_resolution :
    agesAndName.bindSql ("age > ?::int AND note <> 'it''s ?' AND age < ? AND " ++ "name = :name")
        false (fun _ n => "$" ++ toString n) =
      .ok ("age > $1::int AND note <> 'it''s ?' AND age < $2 AND name = $3",
        [.ofValue (.int32 18), .ofValue (.int32 65), .ofValue (.string "x")]) ∧
    (∃ e, agesAndName.bindSql "? ? ?" false (fun _ _ => "?") = .error e) ∧
    (ofBindings [⟨.positional, .ofValue (.int32 7)⟩]).bindSql "SELECT `a\\`?`, :b, ?, '?" true
        (fun _ _ => "?") =
      .ok ("SELECT `a\\`?`, :b, ?, '?", [.ofValue (.int32 7)]) := by
  obtain ⟨-, -, -, -, hparts⟩ := bindSql_resolution agesAndName
    ("age > ?::int AND note <> 'it''s ?' AND age < ? AND " ++ "name = :name") false
  obtain ⟨-, -, -, herror, -⟩ := bindSql_resolution agesAndName "? ? ?" false
  obtain ⟨-, -, hkept, -⟩ := bindSql_resolution (ofBindings [⟨.positional, .ofValue (.int32 7)⟩])
    "SELECT `a\\`?`, :b, ?, '?" true
  refine ⟨(hparts _ _ rfl (by decide) (by decide) _).trans rfl, (herror _).mpr (by decide), ?_⟩
  have hok : (ofBindings [⟨.positional, .ofValue (.int32 7)⟩]).bindSql
      "SELECT `a\\`?`, :b, ?, '?" true (fun _ _ => "?") = _ :=
    bindSql_of_le (by decide)
  rw [hok, hkept rfl _ _ hok]
  rfl

end Params

end QueryKit
