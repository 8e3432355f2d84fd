/-!
# Closed vocabularies

The host and the library exchange the members of small closed vocabularies by
name: kinds of bots, sensors, roles, phases. A vocabulary lists its members in
their order and gives each its name; reading a name is a search in that list.
-/
namespace Warband

class Named (α : Type) where
  all : List α
  name : α → String

/-- The member of a vocabulary with the given name. -/
def Named.ofName? {α : Type} [Named α] (name : String) : Option α :=
  (all : List α).find? fun a => Named.name a == name

/-- A name that is read belongs to the member it is read as. -/
theorem Named.name_of_ofName? {α : Type} [Named α] {s : String} {a : α}
    (h : ofName? s = some a) : Named.name a = s := by
  have := List.find?_some h
  simpa using this

end Warband
