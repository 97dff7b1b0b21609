import HotComponents.FilePath

/-!
# Imports of packages

Which imports name a package: a name, or a scope and a name, that is no path and no address. Some
packages are known to have nothing for this session and are never looked up.
-/

namespace HotComponents.Package

/-- The import is a bare name: `name`, or `@scope/name` with nothing empty, and not relative,
absolute, virtual or an address. -/
def isBareImport (importee : String) : Bool :=
  let cs := importee.toList
  match cs with
  | [] => false
  | first :: _ =>
    if first = '.' ∨ first = '\x00' ∨ first = '/' ∨ cs.contains ':' then false
    else
      match Text.splitOn '/' cs with
      | [_] => true
      | [scope, name] => scope.head? == some '@' && 1 < scope.length && !name.isEmpty
      | _ => false

/-- Modules that come with the platform. -/
def builtins : List String :=
  ["assert", "buffer", "child_process", "crypto", "events", "fs", "http", "https", "module", "net",
    "os", "path", "process", "querystring", "stream", "string_decoder", "timers", "tls", "url",
    "util", "vm", "worker_threads", "zlib"]

/-- Packages that are common and known to name no component entry. -/
def withoutEntry : List String :=
  ["@sveltejs/vite-plugin-svelte", "@sveltejs/kit", "svelte", "vite", "vitest", "debug", "tslib"]

/-- The import may name a package with a component entry. -/
def isCandidate (importee : String) : Bool :=
  isBareImport importee && !("node:".toList.isPrefixOf importee.toList) &&
    !builtins.contains importee && !withoutEntry.contains importee

end HotComponents.Package
