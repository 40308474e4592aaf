import BetaNormal.Report.Kind

/-!
# The catalogue of kinds

The facts about every kind and its members, in the order in which a table of them shows them.
-/

namespace BetaNormal

namespace Member

/-- The signatures and descriptions of operators, which are the same in all kinds. -/
def operatorNotes : List (String × String × String) := [
  ("__repr__", "($self, /)", "Return repr(self)."),
  ("__hash__", "($self, /)", "Return hash(self)."),
  ("__str__", "($self, /)", "Return str(self)."),
  ("__getattribute__", "($self, name, /)", "Return getattr(self, name)."),
  ("__lt__", "($self, value, /)", "Return self<value."),
  ("__le__", "($self, value, /)", "Return self<=value."),
  ("__eq__", "($self, value, /)", "Return self==value."),
  ("__ne__", "($self, value, /)", "Return self!=value."),
  ("__gt__", "($self, value, /)", "Return self>value."),
  ("__ge__", "($self, value, /)", "Return self>=value."),
  ("__iter__", "($self, /)", "Implement iter(self)."),
  ("__mod__", "($self, value, /)", "Return self%value."),
  ("__rmod__", "($self, value, /)", "Return value%self."),
  ("__len__", "($self, /)", "Return len(self)."),
  ("__getitem__", "($self, key, /)", "Return self[key]."),
  ("__add__", "($self, value, /)", "Return self+value."),
  ("__mul__", "($self, value, /)", "Return self*value."),
  ("__rmul__", "($self, value, /)", "Return value*self."),
  ("__contains__", "($self, key, /)", "Return key in self."),
  ("__radd__", "($self, value, /)", "Return value+self."),
  ("__sub__", "($self, value, /)", "Return self-value."),
  ("__rsub__", "($self, value, /)", "Return value-self."),
  ("__divmod__", "($self, value, /)", "Return divmod(self, value)."),
  ("__rdivmod__", "($self, value, /)", "Return divmod(value, self)."),
  ("__pow__", "($self, value, mod=None, /)", "Return pow(self, value, mod)."),
  ("__rpow__", "($self, value, mod=None, /)", "Return pow(value, self, mod)."),
  ("__neg__", "($self, /)", "-self"),
  ("__pos__", "($self, /)", "+self"),
  ("__abs__", "($self, /)", "abs(self)"),
  ("__bool__", "($self, /)", "True if self else False"),
  ("__invert__", "($self, /)", "~self"),
  ("__lshift__", "($self, value, /)", "Return self<<value."),
  ("__rlshift__", "($self, value, /)", "Return value<<self."),
  ("__rshift__", "($self, value, /)", "Return self>>value."),
  ("__rrshift__", "($self, value, /)", "Return value>>self."),
  ("__and__", "($self, value, /)", "Return self&value."),
  ("__rand__", "($self, value, /)", "Return value&self."),
  ("__xor__", "($self, value, /)", "Return self^value."),
  ("__rxor__", "($self, value, /)", "Return value^self."),
  ("__or__", "($self, value, /)", "Return self|value."),
  ("__ror__", "($self, value, /)", "Return value|self."),
  ("__int__", "($self, /)", "int(self)"),
  ("__float__", "($self, /)", "float(self)"),
  ("__floordiv__", "($self, value, /)", "Return self//value."),
  ("__rfloordiv__", "($self, value, /)", "Return value//self."),
  ("__truediv__", "($self, value, /)", "Return self/value."),
  ("__rtruediv__", "($self, value, /)", "Return value/self."),
  ("__index__", "($self, /)",
    "Return self converted to an integer, if self is suitable for use as an index " ++
    "into a list."),
  ("__call__", "($self, /, *args, **kwargs)", "Call self as a function."),
  ("__setattr__", "($self, name, value, /)", "Implement setattr(self, name, value)."),
  ("__delattr__", "($self, name, /)", "Implement delattr(self, name)."),
  ("__init__", "($self, /, *args, **kwargs)",
    "Initialize self.  See help(type(self)) for accurate signature."),
  ("__get__", "($self, instance, owner=None, /)",
    "Return an attribute of instance, which is of type owner."),
  ("__set__", "($self, instance, value, /)", "Set an attribute of instance to value."),
  ("__delete__", "($self, instance, /)", "Delete an attribute of instance."),
  ("__ior__", "($self, value, /)", "Return self|=value.")]

def operator (name : String) : Member :=
  let notes := operatorNotes.lookup name
  ⟨.operator, name, notes.map (·.1), notes.map (·.2)⟩

def operators (names : List String) : List Member := names.map operator

def creator : Member :=
  ⟨.creator, "__new__", some "($type, *args, **kwargs)",
    some "Create and return a new object.  See help(type) for accurate signature."⟩

def ownDescription : Member := ⟨.description, "__doc__", none, none⟩

def ofTexts : List Member :=
  [creator] ++
  operators [
    "__repr__", "__hash__", "__str__", "__getattribute__", "__lt__", "__le__", "__eq__",
    "__ne__", "__gt__", "__ge__", "__iter__", "__mod__", "__rmod__", "__len__", "__getitem__",
    "__add__", "__mul__", "__rmul__", "__contains__"] ++
  [⟨.method, "encode", some "($self, /, encoding='utf-8', errors='strict')",
      some ("Encode the string using the codec registered for encoding.\n\n  encoding\n" ++
        "    The encoding in which to encode the string.\n  errors\n" ++
        "    The error handling scheme to use for encoding errors.\n" ++
        "    The default is 'strict' meaning that encoding errors raise a\n" ++
        "    UnicodeEncodeError.  Other possible values are 'ignore', 'replace' and\n" ++
        "    'xmlcharrefreplace' as well as any other name registered with\n" ++
        "    codecs.register_error that can handle UnicodeEncodeErrors.")⟩,
    ⟨.method, "replace", some "($self, old, new, count=-1, /)",
      some ("Return a copy with all occurrences of substring old replaced by new.\n\n  count\n" ++
        "    Maximum number of occurrences to replace.\n" ++
        "    -1 (the default value) means replace all occurrences.\n\n" ++
        "If the optional argument count is given, only the first count occurrences are\n" ++
        "replaced.")⟩,
    ⟨.method, "split", some "($self, /, sep=None, maxsplit=-1)",
      some ("Return a list of the substrings in the string, using sep as the separator string.\n" ++
        "\n  sep\n    The separator used to split the string.\n\n" ++
        "    When set to None (the default value), will split on any whitespace\n" ++
        "    character (including \\n \\r \\t \\f and spaces) and will discard\n" ++
        "    empty strings from the result.\n  maxsplit\n    Maximum number of splits.\n" ++
        "    -1 (the default value) means no limit.\n\n" ++
        "Splitting starts at the front of the string and works to the end.\n\n" ++
        "Note, str.split() is mainly useful for data that has been intentionally\n" ++
        "delimited.  With natural text that includes punctuation, consider using\n" ++
        "the regular expression module.")⟩,
    ⟨.method, "rsplit", some "($self, /, sep=None, maxsplit=-1)",
      some ("Return a list of the substrings in the string, using sep as the separator string.\n" ++
        "\n  sep\n    The separator used to split the string.\n\n" ++
        "    When set to None (the default value), will split on any whitespace\n" ++
        "    character (including \\n \\r \\t \\f and spaces) and will discard\n" ++
        "    empty strings from the result.\n  maxsplit\n    Maximum number of splits.\n" ++
        "    -1 (the default value) means no limit.\n\n" ++
        "Splitting starts at the end of the string and works to the front.")⟩,
    ⟨.method, "join", some "($self, iterable, /)",
      some ("Concatenate any number of strings.\n\n" ++
        "The string whose method is called is inserted in between each given string.\n" ++
        "The result is returned as a new string.\n\n" ++
        "Example: '.'.join(['ab', 'pq', 'rs']) -> 'ab.pq.rs'")⟩,
    ⟨.method, "capitalize", some "($self, /)",
      some ("Return a capitalized version of the string.\n\n" ++
        "More specifically, make the first character have upper case and the rest lower\n" ++
        "case.")⟩,
    ⟨.method, "casefold", some "($self, /)",
      some "Return a version of the string suitable for caseless comparisons."⟩,
    ⟨.method, "title", some "($self, /)",
      some ("Return a version of the string where each word is titlecased.\n\n" ++
        "More specifically, words start with uppercased characters and all remaining\n" ++
        "cased characters have lower case.")⟩,
    ⟨.method, "center", some "($self, width, fillchar=' ', /)",
      some ("Return a centered string of length width.\n\n" ++
        "Padding is done using the specified fill character (default is a space).")⟩,
    ⟨.method, "count", none,
      some ("S.count(sub[, start[, end]]) -> int\n\n" ++
        "Return the number of non-overlapping occurrences of substring sub in\n" ++
        "string S[start:end].  Optional arguments start and end are\n" ++
        "interpreted as in slice notation.")⟩,
    ⟨.method, "expandtabs", some "($self, /, tabsize=8)",
      some ("Return a copy where all tab characters are expanded using spaces.\n\n" ++
        "If tabsize is not given, a tab size of 8 characters is assumed.")⟩,
    ⟨.method, "find", none,
      some ("S.find(sub[, start[, end]]) -> int\n\n" ++
        "Return the lowest index in S where substring sub is found,\n" ++
        "such that sub is contained within S[start:end].  Optional\n" ++
        "arguments start and end are interpreted as in slice notation.\n\n" ++
        "Return -1 on failure.")⟩,
    ⟨.method, "partition", some "($self, sep, /)",
      some ("Partition the string into three parts using the given separator.\n\n" ++
        "This will search for the separator in the string.  If the separator is found,\n" ++
        "returns a 3-tuple containing the part before the separator, the separator\n" ++
        "itself, and the part after it.\n\n" ++
        "If the separator is not found, returns a 3-tuple containing the original string\n" ++
        "and two empty strings.")⟩,
    ⟨.method, "index", none,
      some ("S.index(sub[, start[, end]]) -> int\n\n" ++
        "Return the lowest index in S where substring sub is found,\n" ++
        "such that sub is contained within S[start:end].  Optional\n" ++
        "arguments start and end are interpreted as in slice notation.\n\n" ++
        "Raises ValueError when the substring is not found.")⟩,
    ⟨.method, "ljust", some "($self, width, fillchar=' ', /)",
      some ("Return a left-justified string of length width.\n\n" ++
        "Padding is done using the specified fill character (default is a space).")⟩,
    ⟨.method, "lower", some "($self, /)",
      some "Return a copy of the string converted to lowercase."⟩,
    ⟨.method, "lstrip", some "($self, chars=None, /)",
      some ("Return a copy of the string with leading whitespace removed.\n\n" ++
        "If chars is given and not None, remove characters in chars instead.")⟩,
    ⟨.method, "rfind", none,
      some ("S.rfind(sub[, start[, end]]) -> int\n\n" ++
        "Return the highest index in S where substring sub is found,\n" ++
        "such that sub is contained within S[start:end].  Optional\n" ++
        "arguments start and end are interpreted as in slice notation.\n\n" ++
        "Return -1 on failure.")⟩,
    ⟨.method, "rindex", none,
      some ("S.rindex(sub[, start[, end]]) -> int\n\n" ++
        "Return the highest index in S where substring sub is found,\n" ++
        "such that sub is contained within S[start:end].  Optional\n" ++
        "arguments start and end are interpreted as in slice notation.\n\n" ++
        "Raises ValueError when the substring is not found.")⟩,
    ⟨.method, "rjust", some "($self, width, fillchar=' ', /)",
      some ("Return a right-justified string of length width.\n\n" ++
        "Padding is done using the specified fill character (default is a space).")⟩,
    ⟨.method, "rstrip", some "($self, chars=None, /)",
      some ("Return a copy of the string with trailing whitespace removed.\n\n" ++
        "If chars is given and not None, remove characters in chars instead.")⟩,
    ⟨.method, "rpartition", some "($self, sep, /)",
      some ("Partition the string into three parts using the given separator.\n\n" ++
        "This will search for the separator in the string, starting at the end. If\n" ++
        "the separator is found, returns a 3-tuple containing the part before the\n" ++
        "separator, the separator itself, and the part after it.\n\n" ++
        "If the separator is not found, returns a 3-tuple containing two empty strings\n" ++
        "and the original string.")⟩,
    ⟨.method, "splitlines", some "($self, /, keepends=False)",
      some ("Return a list of the lines in the string, breaking at line boundaries.\n\n" ++
        "Line breaks are not included in the resulting list unless keepends is given and\n" ++
        "true.")⟩,
    ⟨.method, "strip", some "($self, chars=None, /)",
      some ("Return a copy of the string with leading and trailing whitespace removed.\n\n" ++
        "If chars is given and not None, remove characters in chars instead.")⟩,
    ⟨.method, "swapcase", some "($self, /)",
      some "Convert uppercase characters to lowercase and lowercase characters to uppercase."⟩,
    ⟨.method, "translate", some "($self, table, /)",
      some ("Replace each character in the string using the given translation table.\n\n" ++
        "  table\n" ++
        "    Translation table, which must be a mapping of Unicode ordinals to\n" ++
        "    Unicode ordinals, strings, or None.\n\n" ++
        "The table must implement lookup/indexing via __getitem__, for instance a\n" ++
        "dictionary or list.  If this operation raises LookupError, the character is\n" ++
        "left untouched.  Characters mapped to None are deleted.")⟩,
    ⟨.method, "upper", some "($self, /)",
      some "Return a copy of the string converted to uppercase."⟩,
    ⟨.method, "startswith", none,
      some ("S.startswith(prefix[, start[, end]]) -> bool\n\n" ++
        "Return True if S starts with the specified prefix, False otherwise.\n" ++
        "With optional start, test S beginning at that position.\n" ++
        "With optional end, stop comparing S at that position.\n" ++
        "prefix can also be a tuple of strings to try.")⟩,
    ⟨.method, "endswith", none,
      some ("S.endswith(suffix[, start[, end]]) -> bool\n\n" ++
        "Return True if S ends with the specified suffix, False otherwise.\n" ++
        "With optional start, test S beginning at that position.\n" ++
        "With optional end, stop comparing S at that position.\n" ++
        "suffix can also be a tuple of strings to try.")⟩,
    ⟨.method, "removeprefix", some "($self, prefix, /)",
      some ("Return a str with the given prefix string removed if present.\n\n" ++
        "If the string starts with the prefix string, return string[len(prefix):].\n" ++
        "Otherwise, return a copy of the original string.")⟩,
    ⟨.method, "removesuffix", some "($self, suffix, /)",
      some ("Return a str with the given suffix string removed if present.\n\n" ++
        "If the string ends with the suffix string and that suffix is not empty,\n" ++
        "return string[:-len(suffix)]. Otherwise, return a copy of the original\nstring.")⟩,
    ⟨.method, "isascii", some "($self, /)",
      some ("Return True if all characters in the string are ASCII, False otherwise.\n\n" ++
        "ASCII characters have code points in the range U+0000-U+007F.\n" ++
        "Empty string is ASCII too.")⟩,
    ⟨.method, "islower", some "($self, /)",
      some ("Return True if the string is a lowercase string, False otherwise.\n\n" ++
        "A string is lowercase if all cased characters in the string are lowercase and\n" ++
        "there is at least one cased character in the string.")⟩,
    ⟨.method, "isupper", some "($self, /)",
      some ("Return True if the string is an uppercase string, False otherwise.\n\n" ++
        "A string is uppercase if all cased characters in the string are uppercase and\n" ++
        "there is at least one cased character in the string.")⟩,
    ⟨.method, "istitle", some "($self, /)",
      some ("Return True if the string is a title-cased string, False otherwise.\n\n" ++
        "In a title-cased string, upper- and title-case characters may only\n" ++
        "follow uncased characters and lowercase characters only cased ones.")⟩,
    ⟨.method, "isspace", some "($self, /)",
      some ("Return True if the string is a whitespace string, False otherwise.\n\n" ++
        "A string is whitespace if all characters in the string are whitespace and there\n" ++
        "is at least one character in the string.")⟩,
    ⟨.method, "isdecimal", some "($self, /)",
      some ("Return True if the string is a decimal string, False otherwise.\n\n" ++
        "A string is a decimal string if all characters in the string are decimal and\n" ++
        "there is at least one character in the string.")⟩,
    ⟨.method, "isdigit", some "($self, /)",
      some ("Return True if the string is a digit string, False otherwise.\n\n" ++
        "A string is a digit string if all characters in the string are digits and there\n" ++
        "is at least one character in the string.")⟩,
    ⟨.method, "isnumeric", some "($self, /)",
      some ("Return True if the string is a numeric string, False otherwise.\n\n" ++
        "A string is numeric if all characters in the string are numeric and there is at\n" ++
        "least one character in the string.")⟩,
    ⟨.method, "isalpha", some "($self, /)",
      some ("Return True if the string is an alphabetic string, False otherwise.\n\n" ++
        "A string is alphabetic if all characters in the string are alphabetic and there\n" ++
        "is at least one character in the string.")⟩,
    ⟨.method, "isalnum", some "($self, /)",
      some ("Return True if the string is an alpha-numeric string, False otherwise.\n\n" ++
        "A string is alpha-numeric if all characters in the string are alpha-numeric and\n" ++
        "there is at least one character in the string.")⟩,
    ⟨.method, "isidentifier", some "($self, /)",
      some ("Return True if the string is a valid Python identifier, False otherwise.\n\n" ++
        "Call keyword.iskeyword(s) to test whether string s is a reserved identifier,\n" ++
        "such as \"def\" or \"class\".")⟩,
    ⟨.method, "isprintable", some "($self, /)",
      some ("Return True if the string is printable, False otherwise.\n\n" ++
        "A string is printable if all of its characters are considered printable in\n" ++
        "repr() or if it is empty.")⟩,
    ⟨.method, "zfill", some "($self, width, /)",
      some ("Pad a numeric string with zeros on the left, to fill a field of the given " ++
        "width.\n\n" ++
        "The string is never truncated.")⟩,
    ⟨.method, "format", none,
      some ("S.format(*args, **kwargs) -> str\n\n" ++
        "Return a formatted version of S, using substitutions from args and kwargs.\n" ++
        "The substitutions are identified by braces ('\x7b' and '\x7d').")⟩,
    ⟨.method, "format_map", none,
      some ("S.format_map(mapping) -> str\n\n" ++
        "Return a formatted version of S, using substitutions from mapping.\n" ++
        "The substitutions are identified by braces ('\x7b' and '\x7d').")⟩,
    ⟨.method, "__format__", some "($self, format_spec, /)",
      some "Return a formatted version of the string as described by format_spec."⟩,
    ⟨.creator, "maketrans", some "(x, y=<unrepresentable>, z=<unrepresentable>, /)",
      some ("Return a translation table usable for str.translate().\n\n" ++
        "If there is only one argument, it must be a dictionary mapping Unicode\n" ++
        "ordinals (integers) or characters to Unicode ordinals, strings or None.\n" ++
        "Character keys will be then converted to ordinals.\n" ++
        "If there are two arguments, they must be strings of equal length, and\n" ++
        "in the resulting dictionary, each character in x will be mapped to the\n" ++
        "character at the same position in y. If there is a third argument, it\n" ++
        "must be a string, whose characters will be mapped to None in the result.")⟩,
    ⟨.method, "__sizeof__", some "($self, /)",
      some "Return the size of the string in memory, in bytes."⟩,
    ⟨.method, "__getnewargs__", none, none⟩,
    ownDescription]

def ofNumbers : List Member :=
  [creator] ++
  operators [
    "__repr__", "__hash__", "__getattribute__", "__lt__", "__le__", "__eq__", "__ne__", "__gt__",
    "__ge__", "__add__", "__radd__", "__sub__", "__rsub__", "__mul__", "__rmul__", "__mod__",
    "__rmod__", "__divmod__", "__rdivmod__", "__pow__", "__rpow__", "__neg__", "__pos__",
    "__abs__", "__bool__", "__invert__", "__lshift__", "__rlshift__", "__rshift__",
    "__rrshift__", "__and__", "__rand__", "__xor__", "__rxor__", "__or__", "__ror__", "__int__",
    "__float__", "__floordiv__", "__rfloordiv__", "__truediv__", "__rtruediv__", "__index__"] ++
  [⟨.method, "conjugate", none, some "Returns self, the complex conjugate of any int."⟩,
    ⟨.method, "bit_length", some "($self, /)",
      some ("Number of bits necessary to represent self in binary.\n\n>>> bin(37)\n'0b100101'\n" ++
        ">>> (37).bit_length()\n6")⟩,
    ⟨.method, "bit_count", some "($self, /)",
      some ("Number of ones in the binary representation of the absolute value of self.\n\n" ++
        "Also known as the population count.\n\n>>> bin(13)\n'0b1101'\n>>> (13).bit_count()\n" ++
        "3")⟩,
    ⟨.method, "to_bytes", some "($self, /, length=1, byteorder='big', *, signed=False)",
      some ("Return an array of bytes representing an integer.\n\n  length\n" ++
        "    Length of bytes object to use.  An OverflowError is raised if the\n" ++
        "    integer is not representable with the given number of bytes.  Default\n" ++
        "    is length 1.\n  byteorder\n" ++
        "    The byte order used to represent the integer.  If byteorder is 'big',\n" ++
        "    the most significant byte is at the beginning of the byte array.  If\n" ++
        "    byteorder is 'little', the most significant byte is at the end of the\n" ++
        "    byte array.  To request the native byte order of the host system, use\n" ++
        "    `sys.byteorder' as the byte order value.  Default is to use 'big'.\n  signed\n" ++
        "    Determines whether two's complement is used to represent the integer.\n" ++
        "    If signed is False and a negative integer is given, an OverflowError\n" ++
        "    is raised.")⟩,
    ⟨.methodOfKind, "from_bytes", some "($type, /, bytes, byteorder='big', *, signed=False)",
      some ("Return the integer represented by the given array of bytes.\n\n  bytes\n" ++
        "    Holds the array of bytes to convert.  The argument must either\n" ++
        "    support the buffer protocol or be an iterable object producing bytes.\n" ++
        "    Bytes and bytearray are examples of built-in objects that support the\n" ++
        "    buffer protocol.\n  byteorder\n" ++
        "    The byte order used to represent the integer.  If byteorder is 'big',\n" ++
        "    the most significant byte is at the beginning of the byte array.  If\n" ++
        "    byteorder is 'little', the most significant byte is at the end of the\n" ++
        "    byte array.  To request the native byte order of the host system, use\n" ++
        "    `sys.byteorder' as the byte order value.  Default is to use 'big'.\n  signed\n" ++
        "    Indicates whether two's complement is used to represent the integer.")⟩,
    ⟨.method, "as_integer_ratio", some "($self, /)",
      some ("Return integer ratio.\n\n" ++
        "Return a pair of integers, whose ratio is exactly equal to the original int\n" ++
        "and with a positive denominator.\n\n>>> (10).as_integer_ratio()\n(10, 1)\n" ++
        ">>> (-10).as_integer_ratio()\n(-10, 1)\n>>> (0).as_integer_ratio()\n(0, 1)")⟩,
    ⟨.method, "__trunc__", none, some "Truncating an Integral returns itself."⟩,
    ⟨.method, "__floor__", none, some "Flooring an Integral returns itself."⟩,
    ⟨.method, "__ceil__", none, some "Ceiling of an Integral returns itself."⟩,
    ⟨.method, "__round__", some "($self, ndigits=<unrepresentable>, /)",
      some ("Rounding an Integral returns itself.\n\n" ++
        "Rounding with an ndigits argument also returns an integer.")⟩,
    ⟨.method, "__getnewargs__", some "($self, /)", none⟩,
    ⟨.method, "__format__", some "($self, format_spec, /)", none⟩,
    ⟨.method, "__sizeof__", some "($self, /)", some "Returns size in memory, in bytes."⟩,
    ⟨.computed, "real", none, some "the real part of a complex number"⟩,
    ⟨.computed, "imag", none, some "the imaginary part of a complex number"⟩,
    ⟨.computed, "numerator", none, some "the numerator of a rational number in lowest terms"⟩,
    ⟨.computed, "denominator", none,
      some "the denominator of a rational number in lowest terms"⟩,
    ownDescription]

def ofTruths : List Member :=
  [creator] ++
  operators ["__repr__", "__and__", "__rand__", "__xor__", "__rxor__", "__or__", "__ror__"] ++
  [ownDescription]

def ofNothing : List Member :=
  [creator] ++
  operators ["__repr__", "__bool__"] ++
  [ownDescription]

def ofRows : List Member :=
  [creator] ++
  operators [
    "__repr__", "__hash__", "__getattribute__", "__lt__", "__le__", "__eq__", "__ne__", "__gt__",
    "__ge__", "__iter__", "__len__", "__getitem__", "__add__", "__mul__", "__rmul__",
    "__contains__"] ++
  [⟨.method, "__getnewargs__", some "($self, /)", none⟩,
    ⟨.method, "index", some "($self, value, start=0, stop=sys.maxsize, /)",
      some "Return first index of value.\n\nRaises ValueError if the value is not present."⟩,
    ⟨.method, "count", some "($self, value, /)", some "Return number of occurrences of value."⟩,
    ⟨.methodOfKind, "__class_getitem__", none, some "See PEP 585"⟩,
    ownDescription]

def ofKinds : List Member :=
  [creator] ++
  operators [
    "__repr__", "__call__", "__getattribute__", "__setattr__", "__delattr__", "__init__",
    "__or__", "__ror__"] ++
  [⟨.method, "mro", some "($self, /)", some "Return a type's method resolution order."⟩,
    ⟨.method, "__subclasses__", some "($self, /)",
      some "Return a list of immediate subclasses."⟩,
    ⟨.methodOfKind, "__prepare__", none,
      some "__prepare__() -> dict\nused to create the namespace for the class statement"⟩,
    ⟨.method, "__instancecheck__", some "($self, instance, /)",
      some "Check if an object is an instance."⟩,
    ⟨.method, "__subclasscheck__", some "($self, subclass, /)",
      some "Check if a class is a subclass."⟩,
    ⟨.method, "__dir__", some "($self, /)",
      some "Specialized __dir__ implementation for types."⟩,
    ⟨.method, "__sizeof__", some "($self, /)",
      some "Return memory consumption of the type object."⟩,
    ⟨.stored, "__basicsize__", none, none⟩,
    ⟨.stored, "__itemsize__", none, none⟩,
    ⟨.stored, "__flags__", none, none⟩,
    ⟨.stored, "__weakrefoffset__", none, none⟩,
    ⟨.stored, "__base__", none, none⟩,
    ⟨.stored, "__dictoffset__", none, none⟩,
    ⟨.stored, "__mro__", none, none⟩,
    ⟨.computed, "__name__", none, none⟩,
    ⟨.computed, "__qualname__", none, none⟩,
    ⟨.computed, "__bases__", none, none⟩,
    ⟨.computed, "__module__", none, none⟩,
    ⟨.computed, "__abstractmethods__", none, none⟩,
    ⟨.computed, "__dict__", none, none⟩,
    ⟨.computed, "__doc__", none, none⟩,
    ⟨.computed, "__text_signature__", none, none⟩,
    ⟨.computed, "__annotations__", none, none⟩]

def ofEverything : List Member :=
  [creator] ++
  operators [
    "__repr__", "__hash__", "__str__", "__getattribute__", "__setattr__", "__delattr__",
    "__lt__", "__le__", "__eq__", "__ne__", "__gt__", "__ge__", "__init__"] ++
  [⟨.method, "__reduce_ex__", some "($self, protocol, /)", some "Helper for pickle."⟩,
    ⟨.method, "__reduce__", some "($self, /)", some "Helper for pickle."⟩,
    ⟨.method, "__getstate__", some "($self, /)", some "Helper for pickle."⟩,
    ⟨.methodOfKind, "__subclasshook__", none,
      some ("Abstract classes can override this to customize issubclass().\n\n" ++
        "This is invoked early on by abc.ABCMeta.__subclasscheck__().\n" ++
        "It should return True, False or NotImplemented.  If it returns\n" ++
        "NotImplemented, the normal algorithm is used.  Otherwise, it\n" ++
        "overrides the normal algorithm (and the outcome is cached).\n")⟩,
    ⟨.methodOfKind, "__init_subclass__", none,
      some ("This method is called when a class is subclassed.\n\n" ++
        "The default implementation does nothing. It may be\n" ++
        "overridden to extend subclasses.\n")⟩,
    ⟨.method, "__format__", some "($self, format_spec, /)", some "Default object formatter."⟩,
    ⟨.method, "__sizeof__", some "($self, /)", some "Size of object in memory, in bytes."⟩,
    ⟨.method, "__dir__", some "($self, /)", some "Default dir() implementation."⟩,
    ⟨.computed, "__class__", none, some "the object's class"⟩,
    ownDescription]

def ofOperators : List Member :=
  operators ["__repr__", "__call__", "__getattribute__", "__get__"] ++
  [⟨.method, "__reduce__", none, none⟩,
    ⟨.stored, "__objclass__", none, none⟩,
    ⟨.stored, "__name__", none, none⟩,
    ⟨.computed, "__doc__", none, none⟩,
    ⟨.computed, "__qualname__", none, none⟩,
    ⟨.computed, "__text_signature__", none, none⟩]

def ofMethods : List Member :=
  operators ["__repr__", "__call__", "__getattribute__", "__get__"] ++
  [⟨.method, "__reduce__", none, none⟩,
    ⟨.stored, "__objclass__", none, none⟩,
    ⟨.stored, "__name__", none, none⟩,
    ⟨.computed, "__doc__", none, none⟩,
    ⟨.computed, "__qualname__", none, none⟩,
    ⟨.computed, "__text_signature__", none, none⟩]

def ofMethodsOfKinds : List Member :=
  operators ["__repr__", "__call__", "__getattribute__", "__get__"] ++
  [⟨.stored, "__objclass__", none, none⟩,
    ⟨.stored, "__name__", none, none⟩,
    ⟨.computed, "__doc__", none, none⟩,
    ⟨.computed, "__qualname__", none, none⟩,
    ⟨.computed, "__text_signature__", none, none⟩]

def ofComputed : List Member :=
  operators ["__repr__", "__getattribute__", "__get__", "__set__", "__delete__"] ++
  [⟨.stored, "__objclass__", none, none⟩,
    ⟨.stored, "__name__", none, none⟩,
    ⟨.computed, "__doc__", none, none⟩,
    ⟨.computed, "__qualname__", none, none⟩]

def ofStored : List Member :=
  operators ["__repr__", "__getattribute__", "__get__", "__set__", "__delete__"] ++
  [⟨.method, "__reduce__", none, none⟩,
    ⟨.stored, "__objclass__", none, none⟩,
    ⟨.stored, "__name__", none, none⟩,
    ⟨.computed, "__doc__", none, none⟩,
    ⟨.computed, "__qualname__", none, none⟩]

def ofBoundOperators : List Member :=
  operators [
    "__repr__", "__hash__", "__call__", "__getattribute__", "__lt__", "__le__", "__eq__",
    "__ne__", "__gt__", "__ge__"] ++
  [⟨.method, "__reduce__", none, none⟩,
    ⟨.stored, "__self__", none, none⟩,
    ⟨.computed, "__objclass__", none, none⟩,
    ⟨.computed, "__name__", none, none⟩,
    ⟨.computed, "__qualname__", none, none⟩,
    ⟨.computed, "__doc__", none, none⟩,
    ⟨.computed, "__text_signature__", none, none⟩]

def ofBoundMethods : List Member :=
  operators [
    "__repr__", "__hash__", "__call__", "__getattribute__", "__lt__", "__le__", "__eq__",
    "__ne__", "__gt__", "__ge__"] ++
  [⟨.method, "__reduce__", none, none⟩,
    ⟨.stored, "__module__", none, none⟩,
    ⟨.computed, "__doc__", none, none⟩,
    ⟨.computed, "__name__", none, none⟩,
    ⟨.computed, "__qualname__", none, none⟩,
    ⟨.computed, "__self__", none, none⟩,
    ⟨.computed, "__text_signature__", none, none⟩]

def ofTables : List Member :=
  [creator] ++
  operators [
    "__repr__", "__str__", "__getattribute__", "__lt__", "__le__", "__eq__", "__ne__", "__gt__",
    "__ge__", "__iter__", "__or__", "__ror__", "__ior__", "__len__", "__getitem__",
    "__contains__"] ++
  [⟨.method, "get", none, some "D.get(k[,d]) -> D[k] if k in D, else d.  d defaults to None."⟩,
    ⟨.method, "keys", none, some "D.keys() -> a set-like object providing a view on D's keys"⟩,
    ⟨.method, "values", none, some "D.values() -> an object providing a view on D's values"⟩,
    ⟨.method, "items", none,
      some "D.items() -> a set-like object providing a view on D's items"⟩,
    ⟨.method, "copy", none, some "D.copy() -> a shallow copy of D"⟩,
    ⟨.methodOfKind, "__class_getitem__", none, some "See PEP 585"⟩,
    ⟨.method, "__reversed__", none, some "D.__reversed__() -> reverse iterator"⟩,
    ownDescription,
    ⟨.absent, "__hash__", none, none⟩]

def ofApplied : List Member :=
  [creator] ++
  operators [
    "__repr__", "__hash__", "__call__", "__getattribute__", "__lt__", "__le__", "__eq__",
    "__ne__", "__gt__", "__ge__", "__iter__", "__or__", "__ror__", "__getitem__"] ++
  [⟨.method, "__mro_entries__", none, none⟩,
    ⟨.method, "__instancecheck__", none, none⟩,
    ⟨.method, "__subclasscheck__", none, none⟩,
    ⟨.method, "__reduce__", none, none⟩,
    ⟨.method, "__dir__", none, none⟩,
    ⟨.stored, "__origin__", none, none⟩,
    ⟨.stored, "__args__", none, none⟩,
    ⟨.stored, "__unpacked__", none, none⟩,
    ⟨.computed, "__parameters__", none, some "Type variables in the GenericAlias."⟩,
    ⟨.computed, "__typing_unpacked_tuple_args__", none, none⟩,
    ownDescription]

end Member

namespace Kind

def ownMembers : Kind → List Member
  | .text => Member.ofTexts
  | .number => Member.ofNumbers
  | .truth => Member.ofTruths
  | .nothing => Member.ofNothing
  | .row => Member.ofRows
  | .ofKinds => Member.ofKinds
  | .general => Member.ofEverything
  | .operator => Member.ofOperators
  | .method => Member.ofMethods
  | .methodOfKind => Member.ofMethodsOfKinds
  | .computed => Member.ofComputed
  | .stored => Member.ofStored
  | .boundOperator => Member.ofBoundOperators
  | .boundMethod => Member.ofBoundMethods
  | .table => Member.ofTables
  | .applied => Member.ofApplied

def facts : Kind → Facts
  | .text => ⟨"str", 80, 0, 0, 0, 273159424, none,
      some ("str(object='') -> str\nstr(bytes_or_buffer[, encoding[, errors]]) -> str\n\n" ++
        "Create a new string object from the given object. If encoding or\n" ++
        "errors is specified, then the object must expose a data buffer\n" ++
        "that will be decoded using the given encoding and error handler.\n" ++
        "Otherwise, returns the result of object.__str__() (if defined)\nor repr(object).\n" ++
        "encoding defaults to sys.getdefaultencoding().\nerrors defaults to 'strict'.")⟩
  | .number => ⟨"int", 24, 4, 0, 0, 21501184, none,
      some ("int([x]) -> integer\nint(x, base=10) -> integer\n\n" ++
        "Convert a number or string to an integer, or return 0 if no arguments\n" ++
        "are given.  If x is a number, return x.__int__().  For floating point\n" ++
        "numbers, this truncates towards zero.\n\n" ++
        "If x is not a number or if base is given, then x must be a string,\n" ++
        "bytes, or bytearray instance representing an integer literal in the\n" ++
        "given base.  The literal can be preceded by '+' or '-' and be surrounded\n" ++
        "by whitespace.  The base defaults to 10.  Valid bases are 0 and 2-36.\n" ++
        "Base 0 means to interpret the base from the string as an integer literal.\n" ++
        ">>> int('0b100', base=0)\n4")⟩
  | .truth => ⟨"bool", 32, 4, 0, 0, 21500160, none,
      some ("bool(x) -> bool\n\nReturns True when the argument x is true, False otherwise.\n" ++
        "The builtins True and False are the only two instances of the class bool.\n" ++
        "The class bool is a subclass of the class int, and cannot be subclassed.")⟩
  | .nothing => ⟨"NoneType", 16, 0, 0, 0, 528640, none, none⟩
  | .row => ⟨"tuple", 24, 8, 0, 0, 71849248, some "(iterable=(), /)",
      some ("Built-in immutable sequence.\n\n" ++
        "If no argument is given, the constructor returns an empty tuple.\n" ++
        "If iterable is specified the tuple is initialized from iterable's items.\n\n" ++
        "If the argument is a tuple, the return value is the same object.")⟩
  | .ofKinds => ⟨"type", 904, 40, 264, 368, 2148031744, none,
      some "type(object) -> the object's type\ntype(name, bases, dict, **kwds) -> a new type"⟩
  | .general => ⟨"object", 16, 0, 0, 0, 529664, some "()",
      some ("The base class of the class hierarchy.\n\n" ++
        "When called, it accepts no arguments and returns a new featureless\n" ++
        "instance that has no instance attributes and cannot be given any.\n")⟩
  | .operator => ⟨"wrapper_descriptor", 56, 0, 0, 0, 676224, none, none⟩
  | .method => ⟨"method_descriptor", 56, 0, 0, 0, 678272, none, none⟩
  | .methodOfKind => ⟨"classmethod_descriptor", 56, 0, 0, 0, 545152, none, none⟩
  | .computed => ⟨"getset_descriptor", 48, 0, 0, 0, 545152, none, none⟩
  | .stored => ⟨"member_descriptor", 48, 0, 0, 0, 545152, none, none⟩
  | .boundOperator => ⟨"method-wrapper", 32, 0, 0, 0, 20864, none, none⟩
  | .boundMethod => ⟨"builtin_function_or_method", 56, 0, 0, 40, 547200, none, none⟩
  | .table => ⟨"mappingproxy", 24, 0, 0, 0, 545088, none, none⟩
  | .applied => ⟨"GenericAlias", 64, 0, 0, 40, 548096, none,
      some ("Represent a PEP 585 generic type\n\n" ++
        "E.g. for t = list[int], t.__origin__ is list and t.__args__ is (int,).")⟩

end Kind

end BetaNormal
