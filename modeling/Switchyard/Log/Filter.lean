import Switchyard.Log.Directive

/-!
# Filtering events

A filter is a list of directives.  Of the directives that are about an event, the most specific one
decides whether it is logged; where there is none, nothing is logged.

The text of a filter is read in two ways.  The filter that holds by default leaves out what it
cannot read, so that it always is a filter.  The filter that replaces it has to be right as a
whole, and is not used if it is not.
-/

set_option autoImplicit false

namespace Switchyard

/-- A filter of events. -/
structure LogFilter where
  directives : List Directive

namespace LogFilter

/-! ## Reading a filter -/

/-- The texts of the directives of a filter, between its commas. -/
def parts (s : String) : List String := (s.splitOn ",").filter fun part => !part.isEmpty

/-- The directives of a text, without those that cannot be read. -/
def ofText (s : String) : LogFilter := ⟨(parts s).filterMap Directive.ofText?⟩

/-- The directives of a text, if all of them can be read. -/
def ofText? (s : String) : Option LogFilter := ((parts s).mapM Directive.ofText?).map LogFilter.mk

/-- The filter that holds unless a setting replaces it. -/
def defaultText : String := "grid_topology_kernel=info,sqlx=warn"

/-- The filter of the setting, or the default where the setting is missing or wrong. -/
def ofSetting (default : String) (setting : Option String) : LogFilter :=
  (setting.bind ofText?).getD (ofText default)

/-- Reading every item of a list leaves nothing out if all of them can be read. -/
theorem filterMap_of_mapM {α β : Type} {read : α → Option β} {items : List α} {values : List β}
    (h : items.mapM read = some values) : items.filterMap read = values := by
  induction items generalizing values with
  | nil => simpa using h
  | cons item items ih =>
    simp only [List.mapM_cons, Option.pure_def, Option.bind_eq_bind, Option.bind_eq_some_iff,
      Option.some.injEq] at h
    obtain ⟨b, hb, bs, hbs, rfl⟩ := h
    rw [List.filterMap_cons_some hb, ih hbs]

/-- A text whose directives can all be read is the same filter in either way. -/
theorem ofText_of_ofText? {s : String} {filter : LogFilter} (h : ofText? s = some filter) :
    ofText s = filter := by
  obtain ⟨ds, hds, rfl⟩ := Option.map_eq_some_iff.1 h
  rw [ofText, filterMap_of_mapM hds]

/-! ## Applying a filter -/

/-- The directive that decides about an event. -/
def decisive? (filter : LogFilter) (e : Event) : Option Directive :=
  (filter.directives.filter (·.concerns e)).foldl
    (fun best d =>
      match best with
      | some b => if b.yields d then some d else some b
      | none => some d)
    none

/-- Whether the filter lets an event through. -/
def allows (filter : LogFilter) (e : Event) : Bool :=
  match filter.decisive? e with
  | some d => decide (e.level.rank ≤ d.rank)
  | none => false

end LogFilter

end Switchyard
