import SchemaMigration.Database.Address
import SchemaMigration.Proofs.Text.Cut

/-!
# SchemaMigration.Proofs.Database.Redaction

The password of an address never shows.

* `Address.withPassword` : an address with a password behind the user's name.
* `redact_withPassword` : what is shown of it.
* `redact_of_passwordless` : every other address is shown as it is.

`redact_hides_password` : two addresses that differ in their passwords only are shown alike,
whatever delimiters stand in the passwords and behind them.
-/

namespace SchemaMigration
namespace Address

open Text

/-- The address of a server for a user with a password. -/
def withPassword (scheme user password rest : String) : String :=
  scheme ++ "://" ++ user ++ ":" ++ password ++ "@" ++ rest

/-- A scheme ends at the first `://`, and a user's name at the first colon. -/
structure Delimited (scheme user : String) : Prop where
  scheme : ¬ "://".toList <:+: scheme.toList
  user : ':' ∉ user.toList

instance (scheme user : String) : Decidable (Delimited scheme user) :=
  decidable_of_iff (¬ "://".toList <:+: scheme.toList ∧ ':' ∉ user.toList)
    ⟨fun h => ⟨h.1, h.2⟩, fun h => ⟨h.scheme, h.user⟩⟩

variable {scheme user : String}

/-- No two occurrences of `://` overlap. -/
theorem cutScheme?_eq_some_iff {text before after : List Char} :
    cutFirstText? "://".toList text = some (before, after) ↔
      text = before ++ ("://".toList ++ after) ∧ ¬ "://".toList <:+: before := by
  have hmark : "://".toList = [':', '/', '/'] := by decide
  rw [hmark]
  exact cutFirstText?_eq_some_iff (by decide)

theorem toList_withPassword (scheme user password rest : String) :
    (withPassword scheme user password rest).toList =
      scheme.toList ++ ("://".toList ++
        ((user.toList ++ ':' :: password.toList) ++ '@' :: rest.toList)) := by
  simp [withPassword]

/-- An at-sign in the rest ends a longer password. -/
theorem withPassword_append (scheme user password lead host : String) :
    withPassword scheme user password (lead ++ "@" ++ host) =
      withPassword scheme user (password ++ "@" ++ lead) host := by
  simp [withPassword, String.append_assoc]

theorem redact_withPassword (h : Delimited scheme user) (password : String) {host : String}
    (hhost : '@' ∉ host.toList) :
    redact (withPassword scheme user password host) =
      scheme ++ "://" ++ user ++ ":***@" ++ host := by
  have hscheme : cutFirstText? "://".toList (withPassword scheme user password host).toList =
      some (scheme.toList, (user.toList ++ ':' :: password.toList) ++ '@' :: host.toList) :=
    cutScheme?_eq_some_iff.mpr ⟨toList_withPassword .., h.scheme⟩
  have hlast : cutLast? '@' ((user.toList ++ ':' :: password.toList) ++ '@' :: host.toList) =
      some (user.toList ++ ':' :: password.toList, host.toList) := cutLast?_append hhost _
  have huser : cutFirst? ':' (user.toList ++ ':' :: password.toList) =
      some (user.toList, password.toList) := cutFirst?_append h.user _
  rw [redact, hscheme]
  simp only [hlast, huser]
  rw [← String.toList_inj]
  simp

theorem exists_host (rest : String) :
    '@' ∉ rest.toList ∨ ∃ lead host : String, rest = lead ++ "@" ++ host ∧ '@' ∉ host.toList := by
  by_cases hmem : '@' ∈ rest.toList
  · obtain ⟨lead, host, hrest, hhost⟩ := exists_cutLast hmem
    refine .inr ⟨String.ofList lead, String.ofList host, ?_, by simpa using hhost⟩
    rw [← String.toList_inj]
    simpa using hrest
  · exact .inl hmem

theorem redact_of_passwordless {address : String}
    (h : ∀ scheme user password rest, Delimited scheme user →
      address ≠ withPassword scheme user password rest) :
    redact address = address := by
  rw [redact]
  split
  · rfl
  · rename_i scheme rest hscheme
    split
    · rfl
    · rename_i credentials host hlast
      split
      · rfl
      · rename_i user password huser
        obtain ⟨haddress, hinfix⟩ := cutScheme?_eq_some_iff.mp hscheme
        obtain ⟨hrest, -⟩ := cutLast?_eq_some_iff.mp hlast
        obtain ⟨hcredentials, hcolon⟩ := cutFirst?_eq_some_iff.mp huser
        have htext : (String.ofList scheme).toList = scheme := String.toList_ofList
        have hdelimited : Delimited (String.ofList scheme) (String.ofList user) :=
          ⟨by rwa [htext], by rwa [String.toList_ofList]⟩
        refine absurd ?_ (h _ _ (String.ofList password) (String.ofList host) hdelimited)
        rw [← String.toList_inj, toList_withPassword, haddress, hrest, hcredentials]
        simp

/-- Nothing of a password is shown: whichever it is, three stars stand for all that stands between
the colon behind the user's name and the last at-sign. Only what has no password is shown as it
is. -/
theorem redact_hides_password :
    (∀ scheme user rest, Delimited scheme user → ∀ password other,
      redact (withPassword scheme user password rest) =
        redact (withPassword scheme user other rest)) ∧
      (∀ scheme user host, Delimited scheme user → '@' ∉ host.toList → ∀ password,
        redact (withPassword scheme user password host) =
          scheme ++ "://" ++ user ++ ":***@" ++ host) ∧
      ∀ address, (∀ scheme user password rest, Delimited scheme user →
        address ≠ withPassword scheme user password rest) → redact address = address := by
  refine ⟨fun scheme user rest h password other => ?_, fun scheme user host h hhost password => ?_,
    fun address h => redact_of_passwordless h⟩
  · obtain hhost | ⟨lead, host, rfl, hhost⟩ := exists_host rest
    · rw [redact_withPassword h password hhost, redact_withPassword h other hhost]
    · rw [withPassword_append, withPassword_append, redact_withPassword h _ hhost,
        redact_withPassword h _ hhost]
  · exact redact_withPassword h password hhost

/-- A password that holds every delimiter, and an at-sign behind the host. -/
theorem redact_hides_password_delimiters :
    Delimited "postgres" "ordo@eu" ∧
      redact (withPassword "postgres" "ordo@eu" "p:a@s/s://w" "db.internal/shop?as=a@b") =
        redact (withPassword "postgres" "ordo@eu" "" "db.internal/shop?as=a@b") ∧
      '@' ∉ "db.internal/shop".toList ∧
      redact (withPassword "postgres" "ordo@eu" "p:a@s/s://w" "db.internal/shop") =
        "postgres://ordo@eu:***@db.internal/shop" := by
  have hdelimited : Delimited "postgres" "ordo@eu" := by decide
  have hhost : '@' ∉ "db.internal/shop".toList := by decide
  have hshown := redact_hides_password.2.1 "postgres" "ordo@eu" "db.internal/shop" hdelimited hhost
    "p:a@s/s://w"
  exact ⟨hdelimited, redact_hides_password.1 "postgres" "ordo@eu" "db.internal/shop?as=a@b"
    hdelimited "p:a@s/s://w" "", hhost, hshown⟩

end Address
end SchemaMigration
