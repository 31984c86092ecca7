import ByteMachine.Output.LogFilter
import ByteMachine.Pattern.Meaning
import ByteMachine.Text.Blank

/-!
# Log requests

The text by which a user says what the log shows: rules between commas, and
possibly a slash with a pattern that must occur in messages.  A rule is the name
of a limit, the name of some components, or both with an equals sign between
them.  A rule or pattern that makes no sense is left out with a complaint, and
where no rule is left the log shows errors only.
-/

namespace ByteMachine

/-- What is wrong with a log request. -/
inductive LogComplaint where
  /-- A rule, or the limit in it, is malformed. -/
  | malformed (text : String)
  /-- The request has more than one slash. -/
  | tooManySlashes (request : String)
  /-- What stands behind the slash is no pattern. -/
  | badPattern (refusal : Pattern.Refusal)
  deriving DecidableEq, Repr

namespace LogComplaint

def message : LogComplaint → String
  | malformed text => "invalid logging spec '" ++ text ++ "'"
  | tooManySlashes request =>
      "invalid logging spec '" ++ request ++ "' (too many '/'s)"
  | badPattern refusal => "invalid regex filter - " ++ refusal.message

/-- The line that tells of a complaint. -/
def warning (complaint : LogComplaint) : String :=
  "warning: " ++ complaint.message ++ ", ignoring it\n"

end LogComplaint

/-- What a log request comes to. -/
structure LogRequest where
  rules : List LogRule := []
  wanted : Option Pattern := none
  complaints : List LogComplaint := []
  deriving DecidableEq, Repr

namespace LogRequest

/-- The rule that a text between commas is.  A name without a limit stands for
everything that the components say. -/
def readRule (text : List Char) : Except LogComplaint LogRule :=
  match text.splitOn '=' with
  | [word] =>
      match LogLimit.ofName? (String.ofList word) with
      | some limit => .ok ⟨none, limit⟩
      | none => .ok ⟨some (String.ofList word), .upTo .trace⟩
  | [scope, word] =>
      let word := String.ofList (Text.trim word)
      if word = "" then
        .ok ⟨some (String.ofList scope), .upTo .trace⟩
      else
        match LogLimit.ofName? word with
        | some limit => .ok ⟨some (String.ofList scope), limit⟩
        | none => .error (.malformed word)
  | _ => .error (.malformed (String.ofList text))

/-- Take a rule, or the complaint about it, into a request. -/
def addRule (request : LogRequest) (text : List Char) : LogRequest :=
  match readRule text with
  | .ok rule => { request with rules := LogRule.insert request.rules rule }
  | .error complaint =>
      { request with complaints := request.complaints ++ [complaint] }

/-- Read the rules between commas, of which empty ones do not count. -/
def readRules (text : List Char) : LogRequest :=
  (((text.splitOn ',').map Text.trim).filter fun rule => !rule.isEmpty).foldl
    addRule {}

/-- Take a pattern, or the complaint about it, into a request. -/
def addPattern (request : LogRequest) (text : List Char) : LogRequest :=
  match Pattern.ofText? (String.ofList text) with
  | .ok pattern => { request with wanted := some pattern }
  | .error refusal =>
      { request with
        complaints := request.complaints ++ [.badPattern refusal] }

def ofText (text : String) : LogRequest :=
  match text.toList.splitOn '/' with
  | [rules] => readRules rules
  | [rules, pattern] => (readRules rules).addPattern pattern
  | _ => { complaints := [.tooManySlashes text] }

def filter (request : LogRequest) : LogFilter where
  rules :=
    if request.rules.isEmpty then LogFilter.errorsOnly.rules else request.rules
  wanted := request.wanted

/-- The lines that tell of all complaints about a request. -/
def warnings (request : LogRequest) : String :=
  String.join (request.complaints.map LogComplaint.warning)

end LogRequest
end ByteMachine
