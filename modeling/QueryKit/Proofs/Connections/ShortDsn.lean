import Mathlib
import QueryKit.Connection.Dsn
import QueryKit.Proofs.Dialect.Requoting
import QueryKit.Proofs.Text.Case
import QueryKit.Proofs.Text.Delimited

/-!
# What the short name of a data source shows

- `Dsn.Address`, `Dsn.Secrets`: what a name says that may be shown, and what it says besides. The
  fields tell which characters no part may have; a password may have `@` and `:`, and the options
  may have any character.
- `Text.splitText_slashes`: the first `://` of a name is the one behind its scheme.
- `Dsn.short_address`: the short name is `Address.shown`, whatever the secrets are, and it is its
  own short name.
-/

namespace QueryKit

namespace Text

variable {s r : List Char}

/-- No `://` begins in a text that has none, also if one follows the text. -/
theorem dropText_slashes {c : Char} (h : ¬"://".toList <:+: c :: s) :
    dropText "://".toList (c :: s ++ "://".toList ++ r) = none := by
  rw [Option.eq_none_iff_forall_ne_some]
  intro rest hdrop
  have htext := dropText_eq_some.mp hdrop
  -- one that begins in a text of one or two characters would have a slash in place of the colon
  rcases s with _ | ⟨d, _ | ⟨e, s⟩⟩
  · simp at htext
  · simp at htext
  · rw [List.append_assoc] at htext
    have hstart : "://".toList <+: c :: d :: e :: s :=
      List.prefix_of_prefix_length_le ⟨rest, htext.symm⟩ (List.prefix_append _ _) (by simp)
    exact h hstart.isInfix

theorem splitText_slashes (h : ¬"://".toList <:+: s) :
    splitText "://".toList (s ++ "://".toList ++ r) = some (s, r) := by
  induction s with
  | nil =>
    have hdrop : dropText "://".toList ("://".toList ++ r) = some r := dropText_eq_some.mpr rfl
    have hcons : "://".toList ++ r = ':' :: '/' :: '/' :: r := rfl
    rw [hcons] at hdrop
    rw [List.nil_append, hcons, splitText, hdrop]
  | cons c s ih =>
    have hs : ¬"://".toList <:+: s := fun hs => h (hs.trans (List.suffix_cons c s).isInfix)
    have hdrop := dropText_slashes (r := r) h
    rw [List.cons_append, List.cons_append] at hdrop ⊢
    rw [splitText, hdrop, ih hs]
    rfl

end Text

namespace Dsn

/-! ## The parts of a name -/

/-- The part of a name that may be shown: the scheme, the host with its port, and the path, which
is missing or begins with a slash. -/
structure Address where
  scheme : List Char
  host : List Char
  path : List Char
  scheme_question : '?' ∉ scheme
  scheme_slashes : ¬"://".toList <:+: scheme
  host_at : '@' ∉ host
  host_slash : '/' ∉ host
  host_question : '?' ∉ host
  path_slash : ∀ c ∈ path.head?, c = '/'
  path_question : '?' ∉ path

/-- The part of a name that is secret: the user with the password, and the options. -/
structure Secrets where
  user : Option (List Char)
  options : Option (List Char)
  user_slash : ∀ u ∈ user, '/' ∉ u
  user_question : ∀ u ∈ user, '?' ∉ u

namespace Secrets

/-- What stands in front of the host. -/
def userText (s : Secrets) : List Char :=
  match s.user with
  | none => []
  | some user => user ++ ['@']

/-- What stands behind the path. -/
def optionsText (s : Secrets) : List Char :=
  match s.options with
  | none => []
  | some options => '?' :: options

variable (s : Secrets)

theorem not_mem_userText {c : Char} (hc : c ≠ '@') (h : ∀ u ∈ s.user, c ∉ u) :
    c ∉ s.userText := by
  unfold userText
  split
  · exact List.not_mem_nil
  · next user huser => simp [h user huser, hc]

theorem optionsText_stops : Stops (· ≠ '?') s.optionsText := by
  unfold optionsText
  split
  · exact Stops.nil
  · exact stops_cons rfl

theorem host_userText {h : List Char} (hat : '@' ∉ h) : host (s.userText ++ h) = h := by
  cases huser : s.user with
  | none =>
    rw [userText, huser, List.nil_append, host]
    cases hsplit : Text.splitLast '@' h with
    | none => rfl
    | some r => exact absurd (by rw [(Text.splitLast_some hsplit).1]; simp) hat
  | some user =>
    rw [userText, huser, List.append_assoc, List.singleton_append, host,
      Text.splitLast_append hat]

end Secrets

namespace Address

/-- The whole name, with the secrets. -/
def name (a : Address) (s : Secrets) : String :=
  String.ofList (a.scheme ++ "://".toList ++ (s.userText ++ a.host ++ a.path) ++ s.optionsText)

/-- The path that is shown; a missing one is the root. -/
def root (a : Address) : List Char :=
  if a.path = [] then ['/'] else a.path

/-- The name that may be logged. -/
def shown (a : Address) : String :=
  String.ofList (a.scheme.map Char.toLower ++ "://".toList ++ a.host ++ a.root)

variable (a : Address) (s : Secrets)

theorem path_stops : Stops (· ≠ '/') a.path := by
  intro c hc
  simp [a.path_slash c hc]

theorem no_slash : ∀ c ∈ s.userText ++ a.host, (decide (c ≠ '/')) = true := by
  intro c hc
  have huser := s.not_mem_userText (by decide) s.user_slash
  have hhost := a.host_slash
  rw [decide_eq_true_iff]
  rintro rfl
  exact (List.mem_append.mp hc).elim huser hhost

/-- Behind the scheme, the slash of the path is the first one. -/
theorem authority_host_path : authority (s.userText ++ a.host ++ a.path) = s.userText ++ a.host :=
  takeWhile_append (a.no_slash s) a.path_stops

theorem path_host_path : Dsn.path (s.userText ++ a.host ++ a.path) = a.root := by
  rw [Dsn.path, dropWhile_append (a.no_slash s) a.path_stops, root]
  cases a.path <;> rfl

/-- The question mark in front of the options is the first one. -/
theorem takeWhile_name :
    (a.name s).toList.takeWhile (· ≠ '?') =
      a.scheme ++ "://".toList ++ (s.userText ++ a.host ++ a.path) := by
  rw [name, String.toList_ofList]
  refine takeWhile_append (fun c hc => ?_) s.optionsText_stops
  have huser := s.not_mem_userText (by decide) s.user_question
  have hslashes : '?' ∉ "://".toList := by decide
  rw [decide_eq_true_iff]
  rintro rfl
  simp only [List.mem_append] at hc
  rcases hc with (hc | hc) | (hc | hc) | hc
  · exact a.scheme_question hc
  · exact hslashes hc
  · exact huser hc
  · exact a.host_question hc
  · exact a.path_question hc

theorem short_name : short (a.name s) = a.shown := by
  rw [short, shortChars, takeWhile_name, Text.splitText_slashes a.scheme_slashes]
  dsimp only
  rw [authority_host_path, path_host_path, s.host_userText a.host_at]
  rfl

/-! ## A short name once more -/

/-- The parts of the name that may be shown. -/
def shortened (a : Address) : Address where
  scheme := a.scheme.map Char.toLower
  host := a.host
  path := a.root
  scheme_question := fun h => a.scheme_question ((Text.mem_map_toLower (by decide)).mp h)
  scheme_slashes := fun h => a.scheme_slashes (Text.isInfix_of_map_toLower (by simp) h)
  host_at := a.host_at
  host_slash := a.host_slash
  host_question := a.host_question
  path_slash := by
    unfold root
    split
    · simp
    · exact a.path_slash
  path_question := by
    unfold root
    split
    · decide
    · exact a.path_question

theorem root_shortened : a.shortened.root = a.root := by
  by_cases hpath : a.path = []
  · simp [root, shortened, hpath]
  · simp [root, shortened, hpath]

theorem shown_shortened : a.shortened.shown = a.shown := by
  rw [shown, shown, root_shortened]
  simp only [shortened, List.map_map, Function.comp_def, Char.toLower_toLower_eq_toLower]

end Address

/-- No secrets. -/
def Secrets.none : Secrets where
  user := .none
  options := .none
  user_slash := nofun
  user_question := nofun

/-- A name that may be logged is the name of what it shows. -/
theorem Address.shown_eq_name (a : Address) : a.shown = a.shortened.name .none := by
  simp [shown, name, shortened, Secrets.none, Secrets.userText, Secrets.optionsText]

/-- The short name of a data source has the scheme in small letters, the host and the path. It is
the same whatever the user, the password and the options are, and it is its own short name. -/
theorem short_address (a : Address) (s t : Secrets) :
    short (a.name s) = a.shown ∧ short (a.name s) = short (a.name t) ∧
      short (short (a.name s)) = short (a.name s) := by
  refine ⟨a.short_name s, ?_, ?_⟩
  · rw [a.short_name s, a.short_name t]
  · calc short (short (a.name s))
      _ = short (a.shortened.name .none) := by rw [a.short_name s, a.shown_eq_name]
      _ = a.shortened.shown := a.shortened.short_name .none
      _ = short (a.name s) := by rw [a.shown_shortened, a.short_name s]

/-- A password with the characters that stand between the other parts of a name. -/
def rootSecrets : Secrets where
  user := some "root:p@ss:w".toList
  options := some "charset=utf8&from=a/b@c://d?e".toList
  user_slash := by simp
  user_question := by simp

def localAddress : Address where
  scheme := "MySQL".toList
  host := "db.local:3306".toList
  path := "/app".toList
  scheme_question := by decide
  scheme_slashes := by decide
  host_at := by decide
  host_slash := by decide
  host_question := by decide
  path_slash := by simp
  path_question := by decide

theorem short_localAddress :
    localAddress.name rootSecrets =
      "MySQL://root:p@ss:w@db.local:3306/app?charset=utf8&from=a/b@c://d?e" ∧
    short (localAddress.name rootSecrets) = "mysql://db.local:3306/app" ∧
    short (localAddress.name .none) = "mysql://db.local:3306/app" := by
  obtain ⟨hshort, hsame, -⟩ := short_address localAddress rootSecrets .none
  have hshown : localAddress.shown = "mysql://db.local:3306/app" := by decide
  exact ⟨by decide, hshort.trans hshown, hsame.symm.trans (hshort.trans hshown)⟩

end Dsn

end QueryKit
