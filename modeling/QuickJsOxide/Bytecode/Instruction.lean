import Mathlib.Tactic

namespace QuickJsOxide.Bytecode

/-! Instructions of the bytecode and the facts about them that the verifier and
the virtual machine share. -/

inductive ArgumentsKind where
  | mapped
  | unmapped
deriving Repr, DecidableEq

inductive EvalVariableSource where
  | «local» (index : UInt16)
  | closure (index : UInt16)
deriving Repr, DecidableEq

inductive PrivateNameSource where
  | «local» (index : UInt16)
  | closure (index : UInt16)
deriving Repr, DecidableEq

inductive WithObjectSource where
  | «local» (index : UInt16)
  | closure (index : UInt16)
deriving Repr, DecidableEq

inductive DynamicEnvironmentSource where
  | eval (source : EvalVariableSource)
  | «with» (source : WithObjectSource)
deriving Repr, DecidableEq

inductive DefineMethodKind where
  | method
  | getter
  | setter
deriving Repr, DecidableEq

inductive IteratorCallKind where
  | returnWithValue
  | throwWithValue
  | returnWithoutValue
deriving Repr, DecidableEq

inductive ApplyKind where
  | call
  | construct
deriving Repr, DecidableEq

/-- Operations of the stack machine. A trailing underscore marks a word that
Lean reserves. -/
inductive Instruction where
  | nop
  | pushI32 (value : Int32)
  | pushAtomValueIndex (index : UInt32)
  | pushConst (index : UInt32)
  | fClosure (index : UInt32)
  | regExp (index : UInt32)
  | setName (index : UInt32)
  | throwReadOnly (index : UInt32)
  | throwRedeclaration (index : UInt32)
  | throwDeleteSuper
  | undefined
  | null
  | pushFalse
  | pushTrue
  | pushThis
  | pushActiveFunction
  | pushHomeObject
  | pushNewTarget
  | arguments (kind : ArgumentsKind)
  | rest (start : UInt16)
  | variableEnvironment
  | hasEvalVariable (source : EvalVariableSource) (name : UInt32)
  | getEvalVariable (source : EvalVariableSource) (name : UInt32)
  | putEvalVariable (source : EvalVariableSource) (name : UInt32)
  | deleteEvalVariable (source : EvalVariableSource) (name : UInt32)
  | defineEvalVariable (source : EvalVariableSource) (name : UInt32)
  | toObject
  | hasDynamicBinding (source : DynamicEnvironmentSource) (name : UInt32)
  | getDynamicBinding (source : DynamicEnvironmentSource) (name : UInt32)
  | putDynamicBinding (source : DynamicEnvironmentSource) (name : UInt32)
  | deleteDynamicBinding (source : DynamicEnvironmentSource) (name : UInt32)
  | dynamicEnvironmentObject (source : DynamicEnvironmentSource)
  | globalReference (index : UInt16)
  | getRefValue (index : UInt32)
  | getRefValueUndef (index : UInt32)
  | putRefValue (index : UInt32)
  | getLocal (index : UInt16)
  | putLocal (index : UInt16)
  | setLocal (index : UInt16)
  | setLocalUninitialized (index : UInt16)
  | getLocalCheck (index : UInt16)
  | initializeLocal (index : UInt16)
  | initializeDerivedLocal (index : UInt16)
  | putLocalCheck (index : UInt16)
  | setLocalCheck (index : UInt16)
  | getArg (index : UInt16)
  | putArg (index : UInt16)
  | setArg (index : UInt16)
  | getVarRef (index : UInt16)
  | putVarRef (index : UInt16)
  | setVarRef (index : UInt16)
  | getVarRefCheck (index : UInt16)
  | putVarRefCheck (index : UInt16)
  | initializeVarRef (index : UInt16)
  | initializeModuleImportCollision (index : UInt16)
  | initializeDerivedVarRef (index : UInt16)
  | closeLocal (index : UInt16)
  | getVar (index : UInt16)
  | getVarUndef (index : UInt16)
  | deleteVar (index : UInt16)
  | putVar (index : UInt16)
  | putVarInit (index : UInt16)
  | initializePrivateName (index : UInt16)
  | initializePrivateMethod (index : UInt16)
  | initializePrivateAccessor (index : UInt16)
  | getPrivateField (source : PrivateNameSource)
  | getPrivateField2 (source : PrivateNameSource)
  | putPrivateField (source : PrivateNameSource)
  | definePrivateField (source : PrivateNameSource)
  | privateIn (source : PrivateNameSource)
  | getField (index : UInt32)
  | getField2 (index : UInt32)
  | getArrayEl
  | getArrayEl2
  | getArrayEl3
  | getSuper
  | getSuperValue
  | getSuperValueForCall
  | arrayFrom (elementCount : UInt16)
  | object
  | toPropKey
  | insert2
  | insert3
  | dup3
  | insert4
  | perm3
  | perm4
  | perm5
  | rot4Left
  | putField (index : UInt32)
  | putArrayEl
  | putSuperValue
  | defineField (index : UInt32)
  | defineFieldComputed
  | defineMethod (key : UInt32) (kind : DefineMethodKind) (enumerable : Bool)
  | defineMethodComputed (kind : DefineMethodKind) (enumerable : Bool)
  | defineClass (name : UInt32) (hasHeritage : Bool)
  | installClassInstanceInitializer
  | callClassInstanceInitializer
  | runClassStaticInitializer
  | callClassStaticBlock
  | defineArrayEl
  | setNameComputed
  | setProto
  | copyDataProperties
  | copyDataPropertiesExcluded (targetDepth : UInt8) (sourceDepth : UInt8) (excludedDepth : UInt8)
  | append
  | delete
  | drop
  | nip
  | swap
  | dup
  | dup1
  | neg
  | plus
  | inc
  | dec
  | postInc
  | postDec
  | bitNot
  | not
  | typeOf
  | isUndefinedOrNull
  | isUndefined
  | isNull
  | typeOfIsUndefined
  | typeOfIsFunction
  | add
  | sub
  | mul
  | div
  | mod
  | pow
  | shl
  | sar
  | shr
  | bitAnd
  | bitXor
  | bitOr
  | eq
  | strictEq
  | neq
  | strictNeq
  | lt
  | lte
  | gt
  | gte
  | instanceOf
  | in_
  | ifFalse (target : UInt32)
  | ifTrue (target : UInt32)
  | goto (target : UInt32)
  | catch_ (target : UInt32)
  | dropCatch
  | nipCatch
  | gosub (target : UInt32)
  | ret
  | dropGosub
  | forOfStart
  | forAwaitOfStart
  | forOfNext (offset : UInt8)
  | forAwaitOfNext
  | iteratorGetValueDone
  | forInStart
  | forInNext
  | iteratorClose
  | iteratorClosePreserve
  | iteratorDropPreserve
  | iteratorDetachPreserve
  | iteratorStart
  | asyncIteratorStart
  | iteratorNext
  | iteratorCall (kind : IteratorCallKind)
  | iteratorCheckObject
  | initialYield
  | yield
  | yieldStar
  | asyncYieldStar
  | await
  | throwIteratorMissingThrow
  | import_
  | call (argumentCount : UInt16)
  | tailCall (argumentCount : UInt16)
  | eval (argumentCount : UInt16) (environment : UInt16)
  | callMethod (argumentCount : UInt16)
  | tailCallMethod (argumentCount : UInt16)
  | construct (argumentCount : UInt16)
  | markSuperCall
  | constructSuper (argumentCount : UInt16)
  | checkCtor
  | initDerivedConstructor
  | apply (kind : ApplyKind)
  | applySuper
  | applyEval (environment : UInt16)
  | return_
  | returnUndefined
  | returnDerived (index : UInt16)
  | throw
deriving Repr

inductive StackStateEffect where
  | ordinary
  | markSuperCall
  | consumeSuperCall
  | enterCatch
  | dropCatch
  | preserveCatch
  | enterIterator
  | advanceIterator
  | finishIteratorValue
  | closeIterator
  | preserveIterator
  | detachIterator
  | enterGosub
  | consumeGosub
  | resumeYield
  | resumeAwait
deriving Repr, DecidableEq

def StackStateEffect.preservesSuperPair : StackStateEffect → Bool
  | .consumeSuperCall | .advanceIterator | .finishIteratorValue => false
  | _ => true

inductive ControlEffect where
  | next
  | jump (target : UInt32)
  | branch (target : UInt32)
  | catch_ (target : UInt32)
  | gosub (target : UInt32)
  | ret
  | return_
  | tailCall
  | throw
  | suspend
deriving Repr, DecidableEq

namespace Instruction

def nominalStackEffect : Instruction → Nat × Nat
  | .nop | .checkCtor | .goto _ | .gosub _ | .returnUndefined |
      .throwRedeclaration _ | .throwReadOnly _ | .throwIteratorMissingThrow |
      .setLocalUninitialized _ | .closeLocal _ | .initialYield => (0, 0)
  | .catch_ _ => (0, 1)
  | .forOfStart | .forAwaitOfStart => (1, 3)
  | .iteratorStart | .asyncIteratorStart => (1, 3)
  | .forOfNext _ => (3, 5)
  | .forAwaitOfNext => (3, 4)
  | .iteratorGetValueDone => (2, 3)
  | .iteratorNext => (4, 4)
  | .iteratorCall _ => (4, 5)
  | .forInStart => (1, 1)
  | .forInNext => (1, 3)
  | .pushI32 _ | .pushAtomValueIndex _ | .pushConst _ | .fClosure _ |
      .regExp _ | .undefined | .null | .pushFalse | .pushTrue | .pushThis |
      .pushActiveFunction | .pushHomeObject | .pushNewTarget |
      .initDerivedConstructor | .arguments _ | .rest _ | .variableEnvironment |
      .hasEvalVariable _ _ | .getEvalVariable _ _ | .deleteEvalVariable _ _ |
      .hasDynamicBinding _ _ | .getDynamicBinding _ _ |
      .deleteDynamicBinding _ _ | .dynamicEnvironmentObject _ |
      .globalReference _ | .getLocal _ | .getLocalCheck _ | .getArg _ |
      .getVarRef _ | .getVarRefCheck _ | .getVar _ | .getVarUndef _ |
      .deleteVar _ => (0, 1)
  | .initializePrivateName _ => (0, 0)
  | .initializePrivateMethod _ | .initializePrivateAccessor _ => (2, 1)
  | .setName _ | .toObject | .iteratorCheckObject => (1, 1)
  | .markSuperCall => (2, 2)
  | .getRefValue _ | .getRefValueUndef _ => (1, 2)
  | .getField _ | .getPrivateField _ | .privateIn _ => (1, 1)
  | .getField2 _ => (1, 2)
  | .getPrivateField2 _ => (1, 2)
  | .getArrayEl => (2, 1)
  | .getArrayEl2 => (2, 2)
  | .getArrayEl3 => (2, 3)
  | .getSuper => (1, 1)
  | .getSuperValue => (3, 1)
  | .getSuperValueForCall => (3, 2)
  | .arrayFrom elementCount => (elementCount.toNat, 1)
  | .object => (0, 1)
  | .toPropKey => (1, 1)
  | .insert2 => (2, 3)
  | .insert3 => (3, 4)
  | .dup3 => (3, 6)
  | .insert4 => (4, 5)
  | .perm3 => (3, 3)
  | .perm4 => (4, 4)
  | .perm5 => (5, 5)
  | .rot4Left => (4, 4)
  | .putField _ => (2, 0)
  | .putPrivateField _ => (2, 0)
  | .putArrayEl => (3, 0)
  | .putSuperValue => (4, 0)
  | .defineField _ | .definePrivateField _ | .defineMethod _ _ _ => (2, 1)
  | .defineFieldComputed | .defineMethodComputed _ _ => (3, 1)
  | .defineClass _ _ => (2, 2)
  | .installClassInstanceInitializer => (3, 2)
  | .callClassInstanceInitializer => (2, 1)
  | .runClassStaticInitializer => (2, 1)
  | .callClassStaticBlock => (1, 0)
  | .defineArrayEl | .append => (3, 2)
  | .setNameComputed => (2, 2)
  | .setProto | .copyDataProperties => (2, 1)
  | .copyDataPropertiesExcluded targetDepth sourceDepth excludedDepth =>
    let required :=
      max (max targetDepth.toNat sourceDepth.toNat) excludedDepth.toNat + 1
    (required, required)
  | .delete => (2, 1)
  | .import_ => (2, 1)
  | .call argumentCount | .eval argumentCount _ => (argumentCount.toNat + 1, 1)
  | .tailCall argumentCount => (argumentCount.toNat + 1, 0)
  | .callMethod argumentCount => (argumentCount.toNat + 2, 1)
  | .tailCallMethod argumentCount => (argumentCount.toNat + 2, 0)
  | .construct argumentCount | .constructSuper argumentCount =>
    (argumentCount.toNat + 2, 1)
  | .apply _ | .applySuper => (3, 1)
  | .applyEval _ => (2, 1)
  | .drop | .putEvalVariable _ _ | .defineEvalVariable _ _ |
      .putDynamicBinding _ _ | .putLocal _ | .initializeLocal _ |
      .initializeDerivedLocal _ | .putLocalCheck _ | .putArg _ | .putVarRef _ |
      .putVarRefCheck _ | .initializeVarRef _ |
      .initializeModuleImportCollision _ | .initializeDerivedVarRef _ |
      .putVar _ | .putVarInit _ | .dropCatch | .dropGosub | .ifFalse _ |
      .ifTrue _ | .return_ | .returnDerived _ | .throw => (1, 0)
  | .putRefValue _ => (2, 0)
  | .throwDeleteSuper => (3, 1)
  | .nip => (2, 1)
  | .swap => (2, 2)
  | .nipCatch | .iteratorClosePreserve | .iteratorDropPreserve => (1, 1)
  | .iteratorDetachPreserve => (1, 2)
  | .iteratorClose => (3, 0)
  | .await => (1, 1)
  | .yield | .yieldStar | .asyncYieldStar => (1, 2)
  | .setLocal _ | .setLocalCheck _ | .setArg _ | .setVarRef _ => (1, 1)
  | .dup => (1, 2)
  | .dup1 => (2, 3)
  | .neg | .plus | .inc | .dec | .bitNot | .not | .typeOf |
      .isUndefinedOrNull | .isUndefined | .isNull | .typeOfIsUndefined |
      .typeOfIsFunction => (1, 1)
  | .postInc | .postDec => (1, 2)
  | .add | .sub | .mul | .div | .mod | .pow | .shl | .sar | .shr | .bitAnd |
      .bitXor | .bitOr | .eq | .strictEq | .neq | .strictNeq | .lt | .lte |
      .gt | .gte | .in_ | .instanceOf => (2, 1)
  | .ret => (1, 0)

def stackStateEffect : Instruction → StackStateEffect
  | .markSuperCall => .markSuperCall
  | .constructSuper _ | .applySuper => .consumeSuperCall
  | .catch_ _ => .enterCatch
  | .dropCatch => .dropCatch
  | .nipCatch => .preserveCatch
  | .forOfStart | .forAwaitOfStart => .enterIterator
  | .forOfNext _ | .forAwaitOfNext => .advanceIterator
  | .iteratorGetValueDone => .finishIteratorValue
  | .iteratorClose => .closeIterator
  | .iteratorClosePreserve | .iteratorDropPreserve => .preserveIterator
  | .iteratorDetachPreserve => .detachIterator
  | .gosub _ => .enterGosub
  | .ret | .dropGosub => .consumeGosub
  | .initialYield | .yield | .yieldStar | .asyncYieldStar => .resumeYield
  | .await => .resumeAwait
  | _ => .ordinary

def controlEffect : Instruction → ControlEffect
  | .ifFalse target | .ifTrue target => .branch target
  | .goto target => .jump target
  | .catch_ target => .catch_ target
  | .gosub target => .gosub target
  | .ret => .ret
  | .return_ | .returnUndefined | .returnDerived _ => .return_
  | .tailCall _ | .tailCallMethod _ => .tailCall
  | .throwReadOnly _ | .throwRedeclaration _ | .throwDeleteSuper |
      .throwIteratorMissingThrow | .throw => .throw
  | .initialYield | .yield | .yieldStar | .asyncYieldStar | .await => .suspend
  | _ => .next

end Instruction

end QuickJsOxide.Bytecode
