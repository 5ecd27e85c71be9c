import PenScript.NameMap
import PenScript.Stmt

/-!
# What a session knows

Between submissions a session remembers the values of variables and the bodies
of methods. Names of variables are taken as written. Names of methods are the
same in upper and lower case, and a method is defined once: a second definition
is refused and changes nothing.

## Main results

* `get?_define_self`: a method just defined is found, under its name in any case;
* `define_eq_none_iff`: a definition is refused exactly where the name is taken.
-/

namespace PenScript

/-- The values of variables. -/
abbrev Variables := NameMap Int32

/-- The bodies of methods, by their names in lower case. -/
structure Methods where
  bodies : NameMap (List Stmt)

namespace Methods

/-- No methods. -/
def empty : Methods := ⟨.empty⟩

instance : Inhabited Methods := ⟨empty⟩

/-- The body of a method, whatever the case of its name. -/
def get? (methods : Methods) (name : String) : Option (List Stmt) :=
  methods.bodies.get? (Text.lowercase name)

/-- Whether a method has been defined. -/
def contains (methods : Methods) (name : String) : Bool := (methods.get? name).isSome

/-- Adds a method, unless its name is taken. -/
def define (methods : Methods) (name : String) (body : List Stmt) : Option Methods :=
  if methods.contains name then none
  else some ⟨methods.bodies.insert (Text.lowercase name) body⟩

/-- The names of all methods, in lower case and in increasing order. -/
def names (methods : Methods) : List String := methods.bodies.names

theorem define_eq_none_iff {methods : Methods} {name : String} {body : List Stmt} :
    methods.define name body = none ↔ methods.contains name = true := by
  unfold define
  split <;> simp_all

theorem get?_define_self {methods extended : Methods} {name same : String}
    {body : List Stmt} (hDefine : methods.define name body = some extended)
    (hCase : Text.lowercase same = Text.lowercase name) :
    extended.get? same = some body := by
  unfold define at hDefine
  split at hDefine
  · cases hDefine
  · cases hDefine
    rw [get?, hCase]
    exact NameMap.get?_insert_self _ _ _

end Methods

/-- Variables and methods. -/
structure Store where
  vars : Variables := .empty
  methods : Methods := .empty

instance : Inhabited Store := ⟨{}⟩

end PenScript
