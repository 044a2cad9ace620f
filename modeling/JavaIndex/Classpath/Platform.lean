import JavaIndex.Classpath.Manifest

/-! The classes that every program can count on: the essentials of `java.lang`, `java.io`, the collections
and functional interfaces of `java.util`, and the annotations for resources. -/
namespace JavaIndex.Platform

open Manifest

/-- A class without members. -/
def bare (kind : DeclKind) (name : String) : Manifest.Class := ⟨name, kind, none, [], [], [], [], []⟩

/-- A field of objects. -/
def field (name type : String) : Field := ⟨name, type, false, false⟩

/-- A field of the class itself. -/
def staticField (name type : String) : Field := ⟨name, type, true, false⟩

/-- A method of objects. -/
def method (name : String) (params : List String) (returns : String) : Method :=
  ⟨name, params, returns, false, false, []⟩

/-- A method of the class itself. -/
def static (name : String) (params : List String) (returns : String) : Method :=
  ⟨name, params, returns, true, false, []⟩

/-- The classes, in the order in which they are put into a table. -/
def classes : List Manifest.Class := [
  { bare .classType "java.lang.Object" with
    methods := [
      method "equals" ["java.lang.Object"] "boolean", method "hashCode" [] "int",
      method "toString" [] "java.lang.String", method "getClass" [] "java.lang.Class<?>"]
    constructors := [⟨[], false⟩] },
  { bare .classType "java.lang.String" with
    interfaces := ["java.lang.CharSequence", "java.lang.Comparable<java.lang.String>"]
    methods := [
      method "length" [] "int", method "isEmpty" [] "boolean", method "charAt" ["int"] "char",
      method "substring" ["int"] "java.lang.String",
      method "substring" ["int", "int"] "java.lang.String",
      method "equals" ["java.lang.Object"] "boolean", method "trim" [] "java.lang.String",
      method "toUpperCase" [] "java.lang.String", method "toLowerCase" [] "java.lang.String",
      method "split" ["java.lang.String"] "java.lang.String[]",
      method "contains" ["java.lang.CharSequence"] "boolean",
      method "startsWith" ["java.lang.String"] "boolean",
      static "valueOf" ["java.lang.Object"] "java.lang.String",
      static "valueOf" ["int"] "java.lang.String",
      { static "format" ["java.lang.String", "java.lang.Object[]"] "java.lang.String" with varargs := true }]
    constructors := [⟨[], false⟩, ⟨["java.lang.String"], false⟩] },
  { bare .interfaceType "java.lang.CharSequence" with
    methods := [method "length" [] "int", method "charAt" ["int"] "char"] },
  { bare .interfaceType "java.lang.Comparable" with
    typeParams := ["T"]
    methods := [method "compareTo" ["T"] "int"] },
  { bare .interfaceType "java.lang.Iterable" with
    typeParams := ["T"]
    methods := [
      method "iterator" [] "java.util.Iterator<T>",
      method "forEach" ["java.util.function.Consumer<? super T>"] "void"] },
  { bare .interfaceType "java.lang.Runnable" with
    methods := [method "run" [] "void"] },
  { bare .interfaceType "java.lang.AutoCloseable" with
    methods := [method "close" [] "void"] },
  { bare .classType "java.lang.Class" with
    typeParams := ["T"]
    methods := [
      method "getName" [] "java.lang.String", method "getSimpleName" [] "java.lang.String"] },
  { bare .classType "java.lang.Enum" with
    interfaces := ["java.lang.Comparable<E>"]
    typeParams := ["E"]
    methods := [method "name" [] "java.lang.String", method "ordinal" [] "int"] },
  bare .classType "java.lang.Record",
  { bare .classType "java.lang.Number" with
    methods := [
      method "intValue" [] "int", method "longValue" [] "long", method "doubleValue" [] "double"] },
  { bare .classType "java.lang.Integer" with
    superclass := some "java.lang.Number"
    interfaces := ["java.lang.Comparable<java.lang.Integer>"]
    fields := [staticField "MAX_VALUE" "int", staticField "MIN_VALUE" "int"]
    methods := [
      static "valueOf" ["int"] "java.lang.Integer", static "parseInt" ["java.lang.String"] "int",
      static "toString" ["int"] "java.lang.String"] },
  { bare .classType "java.lang.Long" with
    superclass := some "java.lang.Number"
    fields := [staticField "MAX_VALUE" "long"]
    methods := [
      static "valueOf" ["long"] "java.lang.Long", static "parseLong" ["java.lang.String"] "long"] },
  { bare .classType "java.lang.Double" with
    superclass := some "java.lang.Number"
    methods := [
      static "valueOf" ["double"] "java.lang.Double",
      static "parseDouble" ["java.lang.String"] "double"] },
  { bare .classType "java.lang.Boolean" with
    fields := [staticField "TRUE" "java.lang.Boolean", staticField "FALSE" "java.lang.Boolean"]
    methods := [
      static "valueOf" ["boolean"] "java.lang.Boolean", method "booleanValue" [] "boolean"] },
  { bare .classType "java.lang.Character" with
    methods := [static "isDigit" ["char"] "boolean", static "isLetter" ["char"] "boolean"] },
  { bare .classType "java.lang.Math" with
    methods := [
      static "max" ["int", "int"] "int", static "max" ["long", "long"] "long",
      static "max" ["double", "double"] "double", static "min" ["int", "int"] "int",
      static "min" ["long", "long"] "long", static "abs" ["int"] "int"] },
  { bare .classType "java.lang.System" with
    fields := [staticField "out" "java.io.PrintStream", staticField "err" "java.io.PrintStream"]
    methods := [
      static "currentTimeMillis" [] "long",
      static "arraycopy" ["java.lang.Object", "int", "java.lang.Object", "int", "int"] "void"] },
  { bare .classType "java.lang.StringBuilder" with
    interfaces := ["java.lang.CharSequence"]
    methods := [
      method "append" ["java.lang.String"] "java.lang.StringBuilder",
      method "append" ["int"] "java.lang.StringBuilder",
      method "append" ["char"] "java.lang.StringBuilder",
      method "append" ["java.lang.Object"] "java.lang.StringBuilder", method "length" [] "int",
      method "toString" [] "java.lang.String"]
    constructors := [⟨[], false⟩, ⟨["java.lang.String"], false⟩] },
  { bare .classType "java.lang.Throwable" with
    methods := [method "getMessage" [] "java.lang.String", method "printStackTrace" [] "void"]
    constructors := [⟨[], false⟩, ⟨["java.lang.String"], false⟩] },
  { bare .classType "java.lang.Exception" with
    superclass := some "java.lang.Throwable"
    constructors := [⟨[], false⟩, ⟨["java.lang.String"], false⟩] },
  { bare .classType "java.lang.Error" with
    superclass := some "java.lang.Throwable"
    constructors := [⟨[], false⟩, ⟨["java.lang.String"], false⟩] },
  { bare .classType "java.lang.RuntimeException" with
    superclass := some "java.lang.Exception"
    constructors := [⟨[], false⟩, ⟨["java.lang.String"], false⟩] },
  { bare .classType "java.lang.IllegalArgumentException" with
    superclass := some "java.lang.RuntimeException"
    constructors := [⟨[], false⟩, ⟨["java.lang.String"], false⟩] },
  { bare .classType "java.lang.IllegalStateException" with
    superclass := some "java.lang.RuntimeException"
    constructors := [⟨[], false⟩, ⟨["java.lang.String"], false⟩] },
  { bare .classType "java.lang.NullPointerException" with
    superclass := some "java.lang.RuntimeException"
    constructors := [⟨[], false⟩, ⟨["java.lang.String"], false⟩] },
  { bare .classType "java.lang.UnsupportedOperationException" with
    superclass := some "java.lang.RuntimeException"
    constructors := [⟨[], false⟩, ⟨["java.lang.String"], false⟩] },
  bare .annotationType "java.lang.Override",
  bare .annotationType "java.lang.Deprecated",
  bare .annotationType "java.lang.FunctionalInterface",
  bare .annotationType "java.lang.SafeVarargs",
  { bare .annotationType "java.lang.SuppressWarnings" with
    methods := [method "value" [] "java.lang.String[]"] },
  { bare .classType "java.io.PrintStream" with
    methods := [
      method "println" [] "void", method "println" ["java.lang.String"] "void",
      method "println" ["int"] "void", method "println" ["java.lang.Object"] "void",
      method "print" ["java.lang.String"] "void",
      { method "printf" ["java.lang.String", "java.lang.Object[]"] "java.io.PrintStream" with varargs := true }] },
  { bare .classType "java.io.IOException" with
    superclass := some "java.lang.Exception"
    constructors := [⟨[], false⟩, ⟨["java.lang.String"], false⟩] },
  { bare .interfaceType "java.io.Closeable" with
    interfaces := ["java.lang.AutoCloseable"]
    methods := [method "close" [] "void"] },
  { bare .interfaceType "java.util.Iterator" with
    typeParams := ["E"]
    methods := [method "hasNext" [] "boolean", method "next" [] "E"] },
  { bare .interfaceType "java.util.Collection" with
    interfaces := ["java.lang.Iterable<E>"]
    typeParams := ["E"]
    methods := [
      method "size" [] "int", method "isEmpty" [] "boolean",
      method "contains" ["java.lang.Object"] "boolean", method "add" ["E"] "boolean",
      method "remove" ["java.lang.Object"] "boolean", method "clear" [] "void",
      method "stream" [] "java.util.stream.Stream<E>"] },
  { bare .interfaceType "java.util.List" with
    interfaces := ["java.util.Collection<E>"]
    typeParams := ["E"]
    methods := [
      method "get" ["int"] "E", method "set" ["int", "E"] "E", method "add" ["int", "E"] "void",
      method "indexOf" ["java.lang.Object"] "int",
      { static "of" ["E[]"] "java.util.List<E>" with varargs := true, typeParams := ["E"] }] },
  { bare .classType "java.util.ArrayList" with
    interfaces := ["java.util.List<E>"]
    typeParams := ["E"]
    constructors := [⟨[], false⟩, ⟨["int"], false⟩, ⟨["java.util.Collection<? extends E>"], false⟩] },
  { bare .interfaceType "java.util.Set" with
    interfaces := ["java.util.Collection<E>"]
    typeParams := ["E"] },
  { bare .classType "java.util.HashSet" with
    interfaces := ["java.util.Set<E>"]
    typeParams := ["E"]
    constructors := [⟨[], false⟩] },
  { bare .interfaceType "java.util.Map" with
    typeParams := ["K", "V"]
    methods := [
      method "get" ["java.lang.Object"] "V", method "put" ["K", "V"] "V",
      method "containsKey" ["java.lang.Object"] "boolean", method "remove" ["java.lang.Object"] "V",
      method "size" [] "int", method "isEmpty" [] "boolean", method "keySet" [] "java.util.Set<K>",
      method "values" [] "java.util.Collection<V>"] },
  { bare .classType "java.util.HashMap" with
    interfaces := ["java.util.Map<K, V>"]
    typeParams := ["K", "V"]
    constructors := [⟨[], false⟩] },
  { bare .classType "java.util.Objects" with
    methods := [
      static "equals" ["java.lang.Object", "java.lang.Object"] "boolean",
      { static "hash" ["java.lang.Object[]"] "int" with varargs := true },
      { static "requireNonNull" ["T"] "T" with typeParams := ["T"] }] },
  { bare .classType "java.util.Collections" with
    methods := [
      { static "emptyList" [] "java.util.List<T>" with typeParams := ["T"] },
      { static "unmodifiableList" ["java.util.List<? extends T>"] "java.util.List<T>" with typeParams := ["T"] }] },
  { bare .interfaceType "java.util.function.Function" with
    typeParams := ["T", "R"]
    methods := [method "apply" ["T"] "R"] },
  { bare .interfaceType "java.util.function.Consumer" with
    typeParams := ["T"]
    methods := [method "accept" ["T"] "void"] },
  { bare .interfaceType "java.util.function.Supplier" with
    typeParams := ["T"]
    methods := [method "get" [] "T"] },
  { bare .interfaceType "java.util.function.Predicate" with
    typeParams := ["T"]
    methods := [method "test" ["T"] "boolean"] },
  { bare .interfaceType "java.util.stream.Stream" with
    typeParams := ["T"]
    methods := [
      { method "map" ["java.util.function.Function<? super T, ? extends R>"] "java.util.stream.Stream<R>" with typeParams := ["R"] },
      method "filter" ["java.util.function.Predicate<? super T>"] "java.util.stream.Stream<T>",
      method "forEach" ["java.util.function.Consumer<? super T>"] "void", method "count" [] "long"] },
  bare .annotationType "androidx.annotation.LayoutRes",
  bare .annotationType "androidx.annotation.DrawableRes",
  bare .annotationType "androidx.annotation.StringRes",
  bare .annotationType "androidx.annotation.IdRes",
  bare .annotationType "androidx.annotation.NonNull",
  bare .annotationType "androidx.annotation.Nullable",
  bare .annotationType "android.support.annotation.LayoutRes"]

/-- The description of the platform. -/
def manifest : Manifest := ⟨classes, []⟩

end JavaIndex.Platform

namespace JavaIndex.ExternalTable

/-- A table of the platform alone. -/
def platform : ExternalTable := (empty.load Platform.manifest).2

end JavaIndex.ExternalTable
