/-
# Tokens

A document is first cut into tokens: the words, the marks between them, and the
limits of blocks, which stand for indentation.  The stream of tokens is looked at
while it is being made, so that it can break off with a fault after any of them.
-/

import SampleShape.Yaml.Fault

namespace SampleShape
namespace Yaml

/-- A token and where it starts and stops. -/
structure Token where
  symbol : Symbol
  start : Mark
  stop : Mark

/-- A stream of tokens: it ends where the document does, or breaks off. -/
inductive Tokens where
  | next (t : Token) (rest : Tokens)
  | finished (here : Mark)
  | broken (f : Fault)

namespace Tokens

/-- A stream with more tokens in front. -/
def after (ts : List Token) (rest : Tokens) : Tokens := ts.foldr .next rest

/-- The number of tokens. -/
def size : Tokens → Nat
  | .next _ rest => rest.size + 1
  | .finished _ => 1
  | .broken _ => 0

end Tokens
end Yaml
end SampleShape
