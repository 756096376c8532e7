import CallReplacement.Resolve.Builtins

/-!
Resolution of call sites. The extensions are asked in the order of registration, then the
table of built-in replacements; the first that does not decline owns the call, and a failure
of one that is asked ends the resolution. A call that nobody claims is left as written.
-/

namespace CallReplacement

inductive Handler
  | plugin (name : String)
  | builtin
  | passThrough
deriving DecidableEq, Repr

def Handler.text : Handler → String
  | .plugin name => "plugin '" ++ name ++ "'"
  | .builtin => "builtin"
  | .passThrough => "pass-through"

structure Resolution where
  handler : Handler
  expr : Expr
deriving Repr

/-- A replacement stands at the call site, unless its handler placed it elsewhere. -/
def CallSite.place (s : CallSite) (e : Expr) : Expr :=
  if e.range.isSome then e else e.located s.range

/-- A failure says which handler failed at which call site, unless it is one of the
compiler's own, which keep their form. -/
def CallSite.blame (s : CallSite) (handler : String) (failure : Failure) : Failure :=
  if failure.compileFault?.isSome then failure
  else .handler handler s.owner s.member s.range failure

structure Resolver where
  registry : Registry
  builtins : Builtins
  options : Options

namespace Resolver

def ask (r : Resolver) (s : CallSite) (handler : Handler) (name : String) (replace : Replacer) :
    Except Failure (Option Resolution) :=
  match replace r.options s with
  | .ok (some e) => .ok (some ⟨handler, s.place e⟩)
  | .ok none => .ok none
  | .error failure => .error (s.blame name failure)

def askPlugins (r : Resolver) (s : CallSite) :
    List (String × Replacer) → Except Failure (Option Resolution)
  | [] => .ok none
  | (name, replace) :: rest =>
      match r.ask s (.plugin name) name replace with
      | .ok none => askPlugins r s rest
      | answer => answer

def resolve (r : Resolver) (s : CallSite) : Except Failure Resolution :=
  match r.askPlugins s r.registry.callReplacers with
  | .error failure => .error failure
  | .ok (some resolution) => .ok resolution
  | .ok none =>
      match r.ask s .builtin "builtin" r.builtins.replace with
      | .error failure => .error failure
      | .ok (some resolution) => .ok resolution
      | .ok none => .ok ⟨.passThrough, s.asWritten⟩

/-- The extensions that are asked about a call site: all up to the first that does not
decline. -/
def asked (r : Resolver) (s : CallSite) : List String := go r.registry.callReplacers
where
  go : List (String × Replacer) → List String
    | [] => []
    | (name, replace) :: rest =>
        match replace r.options s with
        | .ok none => name :: go rest
        | _ => [name]

end Resolver
end CallReplacement
