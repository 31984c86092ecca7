import ByteMachine.Output.Journal
import ByteMachine.Pattern.Basic

/-!
# Log filters

Which remarks a log shows.  A filter is a list of rules, each with a limit on
the level for the components whose name starts in a given way, and possibly a
pattern that messages must hold.  Of the rules for a component the one with the
longest name counts, and the last of several.
-/

namespace ByteMachine

/-- Up to which level a log shows remarks. -/
inductive LogLimit where
  | off
  | upTo (level : Level)
  deriving DecidableEq, Repr

namespace LogLimit

def shows : LogLimit → Level → Bool
  | off, _ => false
  | upTo limit, level => level.rank ≤ limit.rank

/-- The limit with a given name: that of a level, or `off`, in any case of the
ASCII letters. -/
def ofName? (name : String) : Option LogLimit :=
  if Text.capitals name = "OFF" then some off else (Level.ofName? name).map upTo

end LogLimit

/-- A limit for some components. -/
structure LogRule where
  /-- How the names of the components start; `none` stands for all components.
  -/
  scope : Option String
  limit : LogLimit
  deriving DecidableEq, Repr

namespace LogRule

def appliesTo (rule : LogRule) (component : Component) : Bool :=
  match rule.scope with
  | none => true
  | some scope => scope.toList.isPrefixOf component.path.toList

/-- How narrow a rule is: the length of its name. -/
def narrowness (rule : LogRule) : Nat :=
  match rule.scope with
  | none => 0
  | some scope => scope.length

/-- Add a rule to a list, in the place of the rule with the same name where
there is one. -/
def insert (rules : List LogRule) (rule : LogRule) : List LogRule :=
  if rules.any fun old => old.scope = rule.scope then
    rules.map fun old => if old.scope = rule.scope then rule else old
  else
    rules ++ [rule]

/-- The narrowest of some rules, and the last of several. -/
def narrowest? (rules : List LogRule) : Option LogRule :=
  rules.foldl (fun best rule =>
    match best with
    | none => some rule
    | some old =>
        if old.narrowness ≤ rule.narrowness then some rule else some old) none

end LogRule

/-- What a log shows. -/
structure LogFilter where
  rules : List LogRule
  /-- A pattern that must occur in messages. -/
  wanted : Option Pattern := none
  deriving DecidableEq, Repr

namespace LogFilter

def errorsOnly : LogFilter where
  rules := [⟨none, .upTo .error⟩]

/-- Whether the rule for a component lets a level through; without a rule
nothing is. -/
def admits (filter : LogFilter) (level : Level) (component : Component) :
    Bool :=
  match LogRule.narrowest?
      (filter.rules.filter fun rule => rule.appliesTo component) with
  | none => false
  | some rule => rule.limit.shows level

/-- Whether the pattern that the filter asks for occurs in a message. -/
def finds (filter : LogFilter) (message : String) : Bool :=
  filter.wanted.all fun pattern => pattern.occursIn message

/-- The log line of a message, or nothing where the filter holds it back. -/
def line (filter : LogFilter) (level : Level) (component : Component)
    (message : String) : String :=
  if filter.admits level component && filter.finds message then
    logLine level component message
  else
    ""

end LogFilter

/-- What an event shows on a channel that takes both log lines and output. -/
def Event.shown (filter : LogFilter) : Event → String
  | remark said => filter.line said.level said.component said.message
  | offered line => line

end ByteMachine
