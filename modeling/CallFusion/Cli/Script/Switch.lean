/-! Switches of a shell, each with a name and most with a letter. -/
namespace CallFusion.Cli.Script

inductive Switch where
  | errexit
  | noglob
  | ignoreeof
  | interactive
  | monitor
  | noexec
  | stdin
  | xtrace
  | verbose
  | vi
  | emacs
  | noclobber
  | allexport
  | notify
  | nounset
  | privileged
  | nolog
  | debug
  deriving DecidableEq, Repr, Inhabited

namespace Switch

def all : List (Switch × String × Option Char) :=
  [(errexit, "errexit", some 'e'), (noglob, "noglob", some 'f'), (ignoreeof, "ignoreeof", some 'I'),
    (interactive, "interactive", some 'i'), (monitor, "monitor", some 'm'), (noexec, "noexec", some 'n'),
    (stdin, "stdin", some 's'), (xtrace, "xtrace", some 'x'), (verbose, "verbose", some 'v'), (vi, "vi", some 'V'),
    (emacs, "emacs", some 'E'), (noclobber, "noclobber", some 'C'), (allexport, "allexport", some 'a'),
    (notify, "notify", some 'b'), (nounset, "nounset", some 'u'), (privileged, "privileged", some 'p'),
    (nolog, "nolog", none), (debug, "debug", none)]

def ofLetter? (c : Char) : Option Switch := (all.find? (·.2.2 == some c)).map (·.1)

def ofName? (name : String) : Option Switch := (all.find? (·.2.1 == name)).map (·.1)

def letters (on : List Switch) : String :=
  String.ofList (all.reverse.filterMap fun (s, _, letter) => if on.contains s then letter else none)

def turn (on : List Switch) (s : Switch) (isOn : Bool) : List Switch :=
  let others := on.filter (· != s)
  if isOn then s :: others else others

def table (on : List Switch) (asCommands : Bool) : String :=
  let line (s : Switch) (name : String) : String :=
    if asCommands then "set " ++ (if on.contains s then "-o " else "+o ") ++ name ++ "\n"
    else name ++ String.ofList (List.replicate (16 - name.length) ' ') ++ (if on.contains s then "on" else "off") ++ "\n"
  (if asCommands then "" else "Current option settings\n") ++ String.join (all.map fun (s, name, _) => line s name)

end Switch
end CallFusion.Cli.Script
