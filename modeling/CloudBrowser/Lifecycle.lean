import CloudBrowser.Text

/-! The identity binding of a browser profile, and the states of its lifecycle. -/
namespace CloudBrowser

structure BrowserBinding where
  profileId : String
  principalId : String
  browserId : String
  generation : String
  deriving DecidableEq, Repr

inductive BrowserState
  | stopped | starting | ready | suspended | failed
  deriving DecidableEq, Repr

/-- A non-sensitive readiness observation. -/
structure BrowserReadiness where
  owner : String
  generation : String
  cdpOk : Bool
  deriving DecidableEq, Repr

end CloudBrowser
