import WordGraph.Query.Rules
import WordGraph.Query.Statement
import WordGraph.Snapshot.Fault

/-!
The errors of the whole library, each by its cause, and the one place where their texts are made.
-/

namespace WordGraph

inductive QueryFault where
  | noFilter
  | misshapenChain (nodes edges : Nat)
  | noPatternAt (index : Nat)
  | unterminatedLine (line : Nat)
  | described (text : String)
  deriving DecidableEq

def QueryFault.message : QueryFault → String
  | noFilter => "match needs at least one filter"
  | misshapenChain nodes edges =>
      "chain needs k+1 node filters for k >= 1 edge filters, got " ++ toString nodes ++ " and "
        ++ toString edges
  | noPatternAt index => "no pattern at " ++ toString index
  | unterminatedLine line => "第 " ++ toString line ++ " 行未以 ; 结尾，批处理已停止"
  | described text => text

def ImageFault.message : ImageFault → String
  | incomplete => "image is incomplete"
  | notText => "image holds invalid text"
  | badPair fault => fault.fullMessage
  | described text => text

def GraphFault.message : GraphFault → String
  | missingNode id => "节点不存在: " ++ id.text
  | idAboveCounter id counter =>
      "存储错误: 节点 ID " ++ id.text ++ " 超过计数器 " ++ toString counter.toNat

def Halt.message : Halt → String
  | exhausted => "attempt to add with overflow"

def SnapshotFault.message : SnapshotFault → String
  | shortHeader => "存储错误: 快照头部数据不足"
  | noSnapshot => "存储错误: 无效的快照文件格式"
  | version v => "存储错误: 不支持的快照版本: " ++ toString v
  | length expected actual =>
      "存储错误: 快照负载长度错误: 期望 " ++ toString expected ++ ", 实际 " ++ toString actual
  | checksum expected actual =>
      "数据校验失败: 期望 CRC " ++ toString expected.toNat ++ ", 实际 " ++ toString actual.toNat
  | block => "存储错误: 快照解压失败: malformed block"
  | image fault => "序列化错误: " ++ fault.message
  | graph fault => fault.message
  | described text => "存储错误: " ++ text

/-- What a report says in place of a result: an error of the program, or the end of the program itself.
With `halt` a report stands for the command at which the program breaks off; it writes no such
report. -/
inductive Error where
  | parse (e : ParseError)
  | rule (keyword : Keyword) (fault : RuleFault)
  | notNumeric (text : String)
  | attributes (fault : AttributeFault)
  | graph (fault : GraphFault)
  | query (fault : QueryFault)
  | snapshot (fault : SnapshotFault)
  | edgeList (text : String)
  | device (text : String)
  | halt (reason : Halt)
  deriving DecidableEq

namespace Error

def message : Error → String
  | parse e => e.message
  | rule keyword fault => "校验失败 [" ++ keyword.word ++ "]: " ++ fault.message
  | notNumeric text => "无效的数值: " ++ text
  | attributes fault => fault.fullMessage
  | graph fault => fault.message
  | query fault => "查询错误: " ++ fault.message
  | snapshot fault => fault.message
  | edgeList text => "导入错误: " ++ text
  | device text => "IO 错误: " ++ text
  | halt reason => reason.message

def isParse : Error → Bool
  | parse _ => true
  | _ => false

end Error
end WordGraph
