/-!
# The shipped header template

The template for C++ headers, as a list of lines. Every line ends in a line feed.

It has two definitions, one for the declaration of a structure and one for the definitions of its
members. A message is one structure; a service is a structure that holds a request and a response.
-/

namespace DsdlHeaders.Template.Shipped

/-- The lines that declare one structure: its types, fields, constants, constructor and codec. -/
def structBody : List String :=
  [
    "% macro struct_body(type_name, fields, constants, union, info)",
    "template <int _tmpl>",
    "struct UAVCAN_EXPORT $\x7btype_name\x7d",
    "\x7b",
    "    typedef const $\x7btype_name\x7d<_tmpl>& ParameterType;",
    "    typedef $\x7btype_name\x7d<_tmpl>& ReferenceType;",
    "",
    "    struct ConstantTypes",
    "    \x7b",
    "% for c in constants:",
    "        typedef $\x7bc.cpp_type\x7d $\x7bc.name\x7d;",
    "% endfor",
    "    \x7d;",
    "",
    "    struct FieldTypes",
    "    \x7b",
    "% for f in fields:",
    "        typedef $\x7bf.cpp_type\x7d $\x7bf.name\x7d;",
    "% endfor",
    "    \x7d;",
    "% if union:",
    "",
    "    enum Tag",
    "    \x7b",
    "% for i, last, f in enum_last_value(fields):",
    "        Tag_$\x7bf.name\x7d = $\x7bi\x7d$\x7b'' if last else ','\x7d",
    "% endfor",
    "    \x7d;",
    "",
    "    typedef ::uavcan::IntegerSpec< ::uavcan::IntegerBitLen< $\x7blen(fields) - 1\x7d >::Result,",
    "                                   ::uavcan::SignednessUnsigned, ::uavcan::CastModeTruncate > TagType;",
    "",
    "    typename ::uavcan::StorageType< TagType >::Type _tag_;",
    "% endif",
    "",
    "    // Constants",
    "% for c in constants:",
    "    static const typename ::uavcan::StorageType< typename ConstantTypes::$\x7bc.name\x7d >::Type $\x7bc.name\x7d; // $\x7bc.value\x7d",
    "% endfor",
    "",
    "    // Fields",
    "% for f in fields:",
    "% if not f.void:",
    "    typename ::uavcan::StorageType< typename FieldTypes::$\x7bf.name\x7d >::Type $\x7bf.name\x7d;",
    "% endif",
    "% endfor",
    "",
    "    $\x7btype_name\x7d()",
    "% for i, f in enumerate(fields | rejectattr('void')):",
    "        $\x7b':' if i == 0 else ','\x7d $\x7bf.name\x7d()",
    "% endfor",
    "    \x7b",
    "    \x7d",
    "",
    "    bool operator==(ParameterType rhs) const;",
    "    bool operator!=(ParameterType rhs) const \x7b return !operator==(rhs); \x7d",
    "",
    "    static int encode(ParameterType self, ::uavcan::ScalarCodec& codec,",
    "                      ::uavcan::TailArrayOptimizationMode tao_mode = ::uavcan::TailArrayOptEnabled);",
    "",
    "    static int decode(ReferenceType self, ::uavcan::ScalarCodec& codec,",
    "                      ::uavcan::TailArrayOptimizationMode tao_mode = ::uavcan::TailArrayOptEnabled);",
    "% if info:",
    "",
    "    static const ::uavcan::DataTypeKind DataTypeKind = $\x7binfo.cpp_kind\x7d;  #! top-level messages only",
    "% if info.has_fixed_port_id:",
    "    enum \x7b DefaultDataTypeID = $\x7binfo.fixed_port_id\x7d \x7d;",
    "% endif",
    "",
    "    static const char* getDataTypeFullName()",
    "    \x7b",
    "        return \"$\x7binfo.full_name\x7d\";",
    "    \x7d",
    "",
    "    static ::uavcan::DataTypeSignature getDataTypeSignature()",
    "    \x7b",
    "        return ::uavcan::DataTypeSignature();",
    "    \x7d",
    "% endif",
    "\x7d;",
    "% endmacro"]

/-- The lines that define the members of one structure: comparison, codec and constants. -/
def structDefinitions : List String :=
  [
    "% macro struct_defs(scope, type_name, fields, constants, union)",
    "template <int _tmpl>",
    "bool $\x7bscope\x7d$\x7btype_name\x7d<_tmpl>::operator==(ParameterType rhs) const",
    "\x7b",
    "    (void)rhs;",
    "% if union:",
    "    if (_tag_ != rhs._tag_)",
    "    \x7b",
    "        return false;",
    "    \x7d",
    "% endif",
    "% for f in fields:",
    "% if not f.void:",
    "    if (!($\x7bf.name\x7d == rhs.$\x7bf.name\x7d))",
    "    \x7b",
    "        return false;",
    "    \x7d",
    "% endif",
    "% endfor",
    "    return true;",
    "\x7d",
    "% for op, self_type in [('encode', 'ParameterType'), ('decode', 'ReferenceType')]:",
    "",
    "template <int _tmpl>",
    "int $\x7bscope\x7d$\x7btype_name\x7d<_tmpl>::$\x7bop\x7d($\x7bself_type\x7d self, ::uavcan::ScalarCodec& codec,",
    "    ::uavcan::TailArrayOptimizationMode tao_mode)",
    "\x7b",
    "    (void)self;",
    "    (void)codec;",
    "    (void)tao_mode;",
    "% if union:",
    "    const int res = TagType::$\x7bop\x7d(self._tag_, codec, ::uavcan::TailArrayOptDisabled);",
    "    if (res <= 0)",
    "    \x7b",
    "        return res;",
    "    \x7d",
    "    switch (self._tag_)",
    "    \x7b",
    "% for f in fields:",
    "    case Tag_$\x7bf.name\x7d:",
    "        return FieldTypes::$\x7bf.name\x7d::$\x7bop\x7d(self.$\x7bf.name\x7d, codec, tao_mode);",
    "% endfor",
    "    default:",
    "        return -1;",
    "    \x7d",
    "% else:",
    "    int res = 1;  #! stays positive while every field succeeds",
    "% for i, last, f in enum_last_value(fields):",
    "% if f.void:",
    "    \x7b",
    "        typename ::uavcan::StorageType< typename FieldTypes::$\x7bf.name\x7d >::Type padding = 0;",
    "        res = FieldTypes::$\x7bf.name\x7d::$\x7bop\x7d(padding, codec, ::uavcan::TailArrayOptDisabled);",
    "    \x7d",
    "% else:",
    "    res = FieldTypes::$\x7bf.name\x7d::$\x7bop\x7d(self.$\x7bf.name\x7d, codec, \\",
    "                                       $\x7b'tao_mode' if last else '::uavcan::TailArrayOptDisabled'\x7d);",
    "% endif",
    "    if (res <= 0)",
    "    \x7b",
    "        return res;",
    "    \x7d",
    "% endfor",
    "    return res;",
    "% endif",
    "\x7d",
    "% endfor",
    "% for c in constants:",
    "",
    "template <int _tmpl>",
    "const typename ::uavcan::StorageType< typename $\x7bscope\x7d$\x7btype_name\x7d<_tmpl>::ConstantTypes::$\x7bc.name\x7d >::Type",
    "    $\x7bscope\x7d$\x7btype_name\x7d<_tmpl>::$\x7bc.name\x7d = $\x7bc.cpp_value\x7d; // $\x7bc.value\x7d",
    "% endfor",
    "% endmacro"]

/-- The lines up to the opened name spaces: the leading comment, the guard and the includes. -/
def opening : List String :=
  [
    "/*",
    " * UAVCAN data structure definition for libuavcan.",
    " *",
    " * Autogenerated, do not edit.",
    " *",
    " * Full name: $\x7bt.full_name\x7d",
    " */",
    "",
    "#ifndef $\x7bt.include_guard\x7d",
    "#define $\x7bt.include_guard\x7d",
    "",
    "#include <uavcan/build_config.hpp>",
    "#include <uavcan/node/global_data_type_registry.hpp>",
    "#include <uavcan/marshal/types.hpp>",
    "",
    "% for inc in t.includes:",
    "#include <$\x7binc\x7d>",
    "% endfor",
    "",
    "% for nsc in t.namespace_components:",
    "namespace $\x7bnsc\x7d",
    "\x7b",
    "% endfor",
    ""]

/-- The lines for the structures themselves, the registration and the closed name spaces. -/
def content : List String :=
  [
    "% if t.kind == 'Message':",
    "$\x7bstruct_body(t.cpp_type_name, t.fields, t.constants, t.union, t)\x7d",
    "",
    "$\x7bstruct_defs('', t.cpp_type_name, t.fields, t.constants, t.union)\x7d",
    "",
    "typedef $\x7bt.cpp_type_name\x7d<0> $\x7bt.short_name\x7d;",
    "% else:",
    "struct UAVCAN_EXPORT $\x7bt.cpp_type_name\x7d",
    "\x7b",
    "$\x7bindent(struct_body('Request_', t.request_fields, t.request_constants, t.request_union, none))\x7d",
    "",
    "$\x7bindent(struct_body('Response_', t.response_fields, t.response_constants, t.response_union, none))\x7d",
    "",
    "    typedef Request_<0> Request;",
    "    typedef Response_<0> Response;",
    "",
    "    static const ::uavcan::DataTypeKind DataTypeKind = $\x7bt.cpp_kind\x7d;",
    "% if t.has_fixed_port_id:",
    "    enum \x7b DefaultDataTypeID = $\x7bt.fixed_port_id\x7d \x7d;",
    "% endif",
    "",
    "    static const char* getDataTypeFullName()",
    "    \x7b",
    "        return \"$\x7bt.full_name\x7d\";",
    "    \x7d",
    "",
    "    static ::uavcan::DataTypeSignature getDataTypeSignature()",
    "    \x7b",
    "        return ::uavcan::DataTypeSignature();",
    "    \x7d",
    "\x7d;",
    "",
    "$\x7bstruct_defs(t.cpp_type_name ~ '::', 'Request_', t.request_fields, t.request_constants, t.request_union)\x7d",
    "",
    "$\x7bstruct_defs(t.cpp_type_name ~ '::', 'Response_', t.response_fields, t.response_constants, t.response_union)\x7d",
    "",
    "typedef $\x7bt.cpp_type_name\x7d $\x7bt.short_name\x7d;",
    "% endif",
    "% if t.has_fixed_port_id:",
    "",
    "namespace",
    "\x7b",
    "",
    "const ::uavcan::DefaultDataTypeRegistrator< $\x7bt.cpp_full_type_name\x7d > _uavcan_gdtr_registrator_$\x7bt.short_name\x7d;",
    "",
    "\x7d",
    "% endif",
    "",
    "% for nsc in t.namespace_components | reverse:",
    "\x7d // Namespace $\x7bnsc\x7d",
    "% endfor",
    "",
    "#endif // $\x7bt.include_guard\x7d"]

/-- All lines of the template. -/
def lines : List String :=
  structBody ++ structDefinitions ++ opening ++ content

/-- The characters of the template. -/
def source : List Char :=
  lines.flatMap fun line => line.toList ++ ['\n']

/-- The text of the template. -/
def text : String :=
  String.ofList source

end DsdlHeaders.Template.Shipped
