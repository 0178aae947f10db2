/-
  The engine that answers queries.

  * `isDynamic`: the answer may change between calls, so it is not stored;
  * `answerQuery`: the first success in the domains of the query's priority;
  * `Engine`: settings, the present, and the cache; `Engine.query` answers from the cache or
    afresh.
-/
import Reckoner.Cache
import Reckoner.Expression
import Reckoner.Query.Classifier

namespace Reckoner

open Text

/-! ## Queries -/

/-- The words that make an answer depend on the present. -/
def dynamicWords : List String :=
  ["today", "now", "tomorrow", "yesterday", "ago", "next", "last", "age of"]

/-- A question to an assistant, or a word that depends on the present. -/
def dynamicPattern : Pattern :=
  .alt (.chain [.start, .anyText ["ai", "ask"], .one isBlank])
    (.word (.anyText dynamicWords))

/-- The answer to a query may change between calls. -/
def isDynamic (query : String) : Bool := dynamicPattern.occursIn (Query.normalize query)

/-- The first success among answers; if there is none, the first answer. -/
def firstSuccess (answers : List Answer) : Option Answer :=
  match answers.find? fun a => !a.isError with
  | some a => some a
  | none => answers.head?

/-- The answer to a query: the first success in the domains of its priority, else the first
failure. -/
def answerQuery (settings : Settings) (now : Calendar.Instant) (query : String) : Answer :=
  let input := trimmed query
  match firstSuccess ((Query.priority input).filterMap fun d => evaluateAs settings now d input) with
  | some answer => answer
  | none => .failure input (Failure.unrecognizedExpression input).message

/-! ## Engines -/

/-- An engine with its cache; `now` is the present as its clock shows it. -/
structure Engine where
  settings : Settings
  now : Calendar.Instant
  cache : ResultCache

namespace Engine

/-- An engine with an empty cache. -/
def ofSetup (setup : Setup) (now : Calendar.Instant) : Except SetupError Engine := do
  setup.validate
  return { settings := setup.settings, now, cache := ← ResultCache.ofCapacity setup.capacity }

/-- Changes the settings and forgets all answers. -/
def reconfigure (e : Engine) (settings : Settings) : Except SetupError Engine := do
  settings.validate
  return { e with settings, cache := e.cache.clear }

/-- The answer to a query, computed afresh. -/
def evaluate (e : Engine) (query : String) : Answer := answerQuery e.settings e.now query

/-- The answer to an expression, computed afresh. -/
def evaluateExpression (e : Engine) (query : String) : Answer :=
  Expression.evaluate e.settings e.now query

/-- Computes the answer to a query and stores it if it is a success that lasts. -/
def compute (e : Engine) (input : String) : List Answer × Engine :=
  let answer := e.evaluate input
  if isDynamic input || answer.isError then ([answer], e)
  else ([answer], { e with cache := e.cache.set input [answer] })

/-- Answers a query; one without text has no answer. -/
def query (e : Engine) (query : String) : List Answer × Engine :=
  let input := trimmed query
  if input.isEmpty then ([], e)
  else if isDynamic input then e.compute input
  else
    match e.cache.get? input with
    | (some answers, cache) => (answers, { e with cache })
    | (none, _) => e.compute input

/-- The stored answers to a query, which becomes the latest used. -/
def lookup (e : Engine) (query : String) : Option (List Answer) × Engine :=
  let (answers, cache) := e.cache.get? query
  (answers, { e with cache })

/-- Forgets all stored answers. -/
def clear (e : Engine) : Engine := { e with cache := e.cache.clear }

end Engine

end Reckoner
