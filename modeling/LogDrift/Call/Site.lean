import LogDrift.Call.Basic
import LogDrift.Call.Name
import LogDrift.Text.Canonical

/-! # Call sites

A call site is a call together with its canonical text, by which sites of two versions are compared.
-/

namespace LogDrift

/-- A call at its place in a method. -/
structure CallSite where
  name : String
  /-- The level of the name, or the whole name if it has none. -/
  verbosity : String
  /-- The canonical text, by which sites are compared. -/
  text : String
  /-- The text as written. -/
  source : String
  arguments : List Argument

namespace CallSite

/-- The site of a call. -/
def ofCall (call : Call) : CallSite where
  name := call.name
  verbosity := verbosityOf call.name
  text := Text.canonicalText call.source
  source := call.source
  arguments := call.arguments

/-- The facets of all arguments together. -/
def facets (site : CallSite) : Facets := Facets.unions (site.arguments.map Argument.facets)

/-- The shape of the arguments, if any of them has a facet. -/
def shape? (site : CallSite) : Option SomeFacets := SomeFacets.of? site.facets

/-- The severity of what the site writes. -/
def severity? (site : CallSite) : Option Severity := Severity.of? site.verbosity site.name

end CallSite

end LogDrift
