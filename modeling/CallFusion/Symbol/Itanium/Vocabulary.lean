import CallFusion.Symbol.Itanium.Node

/-!
The codes of C++ symbols: built-in types, operators and abbreviations.
-/
namespace CallFusion.Symbol.Itanium

def builtins : List (Char × String) :=
  [('a', "signed char"), ('b', "bool"), ('c', "char"), ('d', "double"), ('e', "long double"), ('f', "float"),
    ('g', "__float128"), ('h', "unsigned char"), ('i', "int"), ('j', "unsigned int"), ('l', "long"),
    ('m', "unsigned long"), ('n', "__int128"), ('o', "unsigned __int128"), ('s', "short"),
    ('t', "unsigned short"), ('v', "void"), ('w', "wchar_t"), ('x', "long long"), ('y', "unsigned long long"),
    ('z', "...")]

def extendedBuiltins : List (Char × Node) :=
  [('a', .name "auto"), ('c', .name "decltype(auto)"), ('d', .builtin "decimal64"), ('e', .builtin "decimal128"),
    ('f', .builtin "decimal32"), ('h', .builtin "half"), ('i', .builtin "char32_t"),
    ('n', .builtin "decltype(nullptr)"), ('s', .builtin "char16_t"), ('u', .builtin "char8_t")]

def operators : List (String × String × Nat) :=
  [("aN", "&=", 2), ("aS", "=", 2), ("aa", "&&", 2), ("ad", "&", 1), ("an", "&", 2), ("at", "alignof ", 1),
    ("aw", "co_await ", 1), ("az", "alignof ", 1), ("cc", "const_cast", 2), ("cl", "()", 2), ("cp", "()", 2),
    ("cm", ",", 2), ("co", "~", 1), ("dV", "/=", 2), ("dX", "[...]=", 3), ("da", "delete[] ", 1),
    ("dc", "dynamic_cast", 2), ("de", "*", 1), ("di", "=", 2), ("dl", "delete ", 1), ("ds", ".*", 2),
    ("dt", ".", 2), ("dv", "/", 2), ("dx", "]=", 2), ("eO", "^=", 2), ("eo", "^", 2), ("eq", "==", 2),
    ("fl", "...", 2), ("fr", "...", 2), ("fL", "...", 3), ("fR", "...", 3), ("ge", ">=", 2), ("gs", "::", 1),
    ("gt", ">", 2), ("ix", "[]", 2), ("lS", "<<=", 2), ("le", "<=", 2), ("li", "operator\"\" ", 1),
    ("ls", "<<", 2), ("lt", "<", 2), ("mI", "-=", 2), ("mL", "*=", 2), ("mi", "-", 2), ("ml", "*", 2),
    ("mm", "--", 1), ("na", "new[]", 3), ("ne", "!=", 2), ("ng", "-", 1), ("nt", "!", 1), ("nw", "new", 3),
    ("nx", "noexcept", 1), ("oR", "|=", 2), ("oo", "||", 2), ("or", "|", 2), ("pL", "+=", 2), ("pl", "+", 2),
    ("pm", "->*", 2), ("pp", "++", 1), ("ps", "+", 1), ("pt", "->", 2), ("qu", "?", 3), ("rM", "%=", 2),
    ("rS", ">>=", 2), ("rc", "reinterpret_cast", 2), ("rm", "%", 2), ("rs", ">>", 2), ("sP", "sizeof...", 1),
    ("sZ", "sizeof...", 1), ("sc", "static_cast", 2), ("ss", "<=>", 2), ("st", "sizeof ", 1), ("sz", "sizeof ", 1),
    ("te", "typeid ", 1), ("ti", "typeid ", 1), ("tr", "throw", 0), ("tw", "throw ", 1)]

def standard (text : String) : Node := ⟨.qualified false, [.name "std", .name text]⟩

def standardTemplate (text : String) (args : List Node) : Node := ⟨.template, standard text :: args⟩

def abbreviations : List (Char × Node) :=
  [('t', .name "std"), ('a', standard "allocator"), ('b', standard "basic_string"), ('s', standard "string"),
    ('i', standard "istream"), ('o', standard "ostream"), ('d', standard "iostream")]

def charTraits : Node := standardTemplate "char_traits" [.builtin "char"]

/-- What the abbreviations stand for where a constructor or destructor follows, which is named for
the class behind them. -/
def expandedAbbreviations : List (Char × Node) :=
  [('t', .name "std"), ('a', standard "allocator"), ('b', standard "basic_string"),
    ('s', standardTemplate "basic_string"
      [.builtin "char", charTraits, standardTemplate "allocator" [.builtin "char"]]),
    ('i', standardTemplate "basic_istream" [.builtin "char", charTraits]),
    ('o', standardTemplate "basic_ostream" [.builtin "char", charTraits]),
    ('d', standardTemplate "basic_iostream" [.builtin "char", charTraits])]

def integerEndings : List (String × String) :=
  [("int", ""), ("unsigned int", "u"), ("long", "l"), ("unsigned long", "ul"), ("long long", "ll"),
    ("unsigned long long", "ull")]

def floatTypes : List String := ["double", "long double", "float", "__float128", "half"]

inductive Subject where
  | type
  | name
  | encoding
  | argument
  | thunk (kinds : List (Option Char))
  deriving DecidableEq, Repr

def specials : List (String × String × Subject) :=
  [("TV", "vtable for ", .type), ("TT", "VTT for ", .type), ("TI", "typeinfo for ", .type),
    ("TS", "typeinfo name for ", .type), ("TA", "template parameter object for ", .argument),
    ("TF", "typeinfo fn for ", .type), ("TJ", "java Class for ", .type),
    ("TH", "TLS init function for ", .name), ("TW", "TLS wrapper function for ", .name),
    ("Th", "non-virtual thunk to ", .thunk [some 'h']), ("Tv", "virtual thunk to ", .thunk [some 'v']),
    ("Tc", "covariant return thunk to ", .thunk [none, none]), ("GV", "guard variable for ", .name),
    ("GA", "hidden alias for ", .encoding)]

end CallFusion.Symbol.Itanium
