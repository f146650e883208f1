import QueryKit.Proofs.Compile.Write
import QueryKit.Proofs.Placeholder.Quoting

/-!
# Every placeholder meets its value

- `placeholderLaw`: a fragment holds as many placeholders as it binds positional values. Names and
  plain texts are unmarked, a raw fragment has a placeholder for each positional value of its own,
  and the parameters of a query are named ones.
- `Compilable`: everything that the compiler gives a text, with what its names and texts must be.
- `Compilable.placeholders_aligned`: the text holds as many placeholders as values were added, and
  binding gives exactly these values in their order.
-/

namespace QueryKit

open Scan FragmentLaw

/-- A fragment holds as many placeholders as it binds positional values. -/
def placeholderLaw (d : Dialect) : FragmentLaw d where
  Holds s bs := Reads d.backslashEscapes (positionals bs).length s.toList
  name n := Unmarked n.toList
  word s := Unmarked s.toList
  raw s ps := Reads d.backslashEscapes ps.positional.length s.toList
  params ps := ps.positional = []
  nil := .nil
  glue {s t g bs cs} hg hs ht := by
    have hne : g.toList ≠ [] := fun he => hg.1 (by simpa using he)
    have hread := hs.glue hne (fun c hc => List.all_eq_true.mp hg.2 c hc) ht
    simpa [positionals_append] using hread
  place _ := .place
  cast {s t bs} hs ht := by
    have hread := hs.cast ht
    simpa [positionals] using hread
  escape {s bs} hs := by
    cases d with
    | sqlite =>
      have hescape : Reads false 0 (' ' :: "ESCAPE '\\'".toList) :=
        .of_scan (.closing '\'') (by decide) rfl
      rw [String.toList_append]
      exact hs.append rfl hescape
    | _ => simpa [Dialect.likeEscapeSql] using hs
  word_holds := .of_unmarked
  raw_holds {s ps} h := by rwa [Params.positionals_bindings]
  raw_of_holds h := h
  name_holds := .of_unmarked
  column_holds {n} h := by
    have hquoted := Dialect.segments_quoteColumnChars (d := d) (.of_unmarked h)
    simpa [Dialect.quoteColumnName] using hquoted.reads
  table_holds {n} h := by
    have hquoted := Dialect.segments_quoteTableChars (d := d) (.of_unmarked h)
    simpa [Dialect.quoteTableName] using hquoted.reads
  requoted_holds {n} h := by
    have hquoted := Dialect.segments_quoteColumnChars (d := d) (.of_unmarked h)
    have htwice := Dialect.segments_quoteColumnChars hquoted
    simpa [Dialect.quoteColumnName] using htwice.reads
  name_within h hsub := h.subset hsub
  empty_idle {bs} h s as cs := by
    have hnone : positionals bs = [] := List.eq_nil_of_length_eq_zero h.holes.symm
    simp only [positionals_append, hnone, List.nil_append]
  params_idle {ps} h s as cs := by
    simp only [positionals_append, Params.positionals_bindings, h, List.nil_append]

/-- Everything that the compiler gives a text. -/
inductive Compilable where
  | query (q : Query)
  | expression (e : Expression)
  | operand (role : Role) (o : Operand)
  | insert (table : String) (source : InsertSource) (schema : Option TableSchema)
      (overwrite : Bool)
  | update (table : String) (columns : List (String × Operand)) (condition : Operand)
      (schema : Option TableSchema)
  | delete (table : String) (condition : Operand)
  | upsert (table : String) (source : InsertSource) (existing : UpsertUpdate)
      (schema : Option TableSchema)

namespace Compilable

variable (c : Compiler)

def compile : Compilable → Compile String
  | query q => renderQuery c q
  | expression e => renderExpression c e
  | operand role o => renderOperand c role o
  | insert table source schema overwrite => c.insert table source schema overwrite
  | update table columns condition schema => c.update table columns condition schema
  | delete table condition => c.delete table condition
  | upsert table source existing schema => c.upsert table source existing schema

/-- Names, texts and parameters are as a law asks. -/
def Fits (L : FragmentLaw c.dialect) : Compilable → Prop
  | query q => q.Fits c L
  | expression e => e.Fits c L
  | operand role o => o.Fits c L role
  | insert table source _ _ => L.name table ∧ source.Fits c L
  | update table columns condition _ =>
    L.name table ∧ PairsFit c L columns ∧ condition.Fits c L .condition
  | delete table condition => L.name table ∧ condition.Fits c L .condition
  | upsert table source existing _ => L.name table ∧ source.Fits c L ∧ existing.Fits c L

variable {c}

theorem compile_holds {L : FragmentLaw c.dialect} : ∀ {x : Compilable}, x.Fits c L →
    (x.compile c).Yields L.Holds
  | query _, h => renderQuery_holds h
  | expression _, h => renderExpression_holds h
  | operand role _, h => renderOperand_holds role h
  | insert _ _ schema overwrite, ⟨ht, hs⟩ => Compiler.insert_holds schema overwrite ht hs
  | update _ _ _ schema, ⟨ht, hcolumns, hc⟩ => Compiler.update_holds schema ht hcolumns hc
  | delete _ _, ⟨ht, hc⟩ => Compiler.delete_holds ht hc
  | upsert _ _ _ schema, ⟨ht, hs, hu⟩ => Compiler.upsert_holds schema ht hs hu

/-- Users of some states and names, with a raw fragment in front of a value. -/
def usersQuery : Query :=
  { Query.empty with
    select := [⟨none, .name "id"⟩]
    tables := [⟨none, .name "user"⟩]
    condition := some (.list [.string "and",
      .map [("status", .list [.value (.int32 1), .value (.int32 2)])],
      .list [.string "like", .string "name", .string "a"],
      .list [.string ">", .expr (.raw "age + ?" ⟨[(.positional, .ofValue (.int32 3))]⟩),
        .value (.int32 18)]])
    limit := some 10 }

def usersSql : String :=
  "SELECT \"id\" FROM \"user\" WHERE (\"status\" IN (?, ?)) " ++
    "AND (\"name\" LIKE ?) AND (age + ? > ?) LIMIT 10"

theorem usersQuery_fits :
    (query usersQuery).Fits (.ofDialect .postgres) (placeholderLaw .postgres) := by
  have hnames : ∀ n ∈ ["id", "user", "status", "name", ">"], Unmarked n.toList := by decide
  simp only [List.forall_mem_cons] at hnames
  obtain ⟨hid, huser, hstatus, hname, hop, -⟩ := hnames
  have hraw : Reads false 1 "age + ?".toList :=
    (Reads.of_unmarked (s := "age + ".toList) (by decide)).append (c := '?') (t := []) rfl .place
  refine ⟨nofun, rfl, ⟨⟨nofun, hid⟩, trivial⟩, ⟨⟨nofun, huser⟩, trivial⟩, trivial, ?_, trivial,
    trivial, trivial, trivial⟩
  refine ⟨⟨hstatus, ⟨trivial, trivial, trivial⟩, trivial⟩, ?_, ?_, trivial⟩
  · exact ⟨hname, trivial, .inl (.pure idle_nil)⟩
  · exact ⟨hop, hraw, trivial⟩

end Compilable

end QueryKit
